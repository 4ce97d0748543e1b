/-
  GenieCloud.Thingpedia.WeeklyCredits — the credits that organizations get each week
  (`applyWeeklyCreditUpdate` of `model/organization.ts`, the view `org_statistics`).

  Credits and rates are whole numbers, times are seconds. The assignments of the update are
  evaluated from left to right, and `timestampdiff` counts whole weeks, rounding down.

  - `rate_eq`: the counts of the view make the sum of what each device of the organization is
    charged for.
  - `update_update`: an update after another one does what it does alone.
  - `runs_eq`: any number of updates is the last one of them.
-/

import Mathlib.Algebra.BigOperators.Group.List.Basic
import Mathlib.Tactic.Ring

namespace GenieCloud.Thingpedia.WeeklyCredits

/-! ## The statement -/

structure Organization where
  id : Nat
  credits : Int
  last_credit_update : Int
  deriving DecidableEq, Repr

/-- A row of `device_class`. -/
structure DeviceClass where
  owner : Nat
  license_gplcompatible : Bool
  approved_version : Option Int
  deriving DecidableEq, Repr

structure StatisticsRow where
  id : Nat
  device_count : Nat
  oss_device_count : Nat
  approved_device_count : Nat
  oss_approved_device_count : Nat
  deriving DecidableEq, Repr

/-- The row of the view for an organization. -/
def org_statistics (devices : List DeviceClass) (id : Nat) : StatisticsRow where
  id := id
  device_count := devices.countP fun d => d.owner = id
  oss_device_count := devices.countP fun d => d.license_gplcompatible && d.owner = id
  approved_device_count := devices.countP fun d => d.approved_version.isSome && d.owner = id
  oss_approved_device_count := devices.countP fun d => d.license_gplcompatible && d.approved_version.isSome && d.owner = id

structure CreditUpdateParams where
  WEEKLY_APPROVED_THINGPEDIA_UPDATE : Int
  WEEKLY_OSS_THINGPEDIA_UPDATE : Int
  WEEKLY_THINGPEDIA_UPDATE : Int

def week : Int := 7 * 24 * 60 * 60

/-- `timestampdiff(week, since, now)` -/
def timestampdiff (since now : Int) : Int := (now - since) / week

variable (params : CreditUpdateParams) (devices : List DeviceClass)

def rate (os : StatisticsRow) : Int :=
  params.WEEKLY_APPROVED_THINGPEDIA_UPDATE * os.approved_device_count +
    params.WEEKLY_OSS_THINGPEDIA_UPDATE * (os.oss_device_count - os.oss_approved_device_count) +
    params.WEEKLY_THINGPEDIA_UPDATE *
      (os.device_count - os.approved_device_count - (os.oss_device_count - os.oss_approved_device_count))

def setCredits (os : StatisticsRow) (now : Int) (org : Organization) : Organization :=
  { org with credits := org.credits + rate params os * timestampdiff org.last_credit_update now }

def setLastCreditUpdate (now : Int) (org : Organization) : Organization :=
  { org with last_credit_update := org.last_credit_update + timestampdiff org.last_credit_update now * week }

/-- The row after the update. -/
def update (now : Int) (org : Organization) : Organization :=
  setLastCreditUpdate now (setCredits params (org_statistics devices org.id) now org)

def applyWeeklyCreditUpdate (orgs : List Organization) (now : Int) : List Organization := orgs.map (update params devices now)

/-! ## What is wanted -/

/-- What a device is charged for in a week: as an approved one, as an open one that is not
    approved, or as neither. -/
def charge (d : DeviceClass) : Int :=
  if d.approved_version.isSome then params.WEEKLY_APPROVED_THINGPEDIA_UPDATE
  else if d.license_gplcompatible then params.WEEKLY_OSS_THINGPEDIA_UPDATE
  else params.WEEKLY_THINGPEDIA_UPDATE

/-- For the devices of an organization, each once. -/
def charges (id : Nat) : Int := ((devices.filter (·.owner = id)).map (charge params)).sum

/-- The organization with so many weeks more. -/
def addWeeks (org : Organization) (weeks : Int) : Organization where
  id := org.id
  credits := org.credits + charges params devices org.id * weeks
  last_credit_update := org.last_credit_update + weeks * week

/-! ## The rate -/

theorem rate_eq (id : Nat) : rate params (org_statistics devices id) = charges params devices id := by
  induction devices with
  | nil => simp [rate, org_statistics, charges]
  | cons d devices ih =>
    by_cases howner : d.owner = id
    · have hsum : charges params (d :: devices) id = charge params d + charges params devices id := by
        simp [charges, howner]
      rw [hsum, ← ih, charge]
      cases happroved : d.approved_version.isSome with
      | true =>
        cases hoss : d.license_gplcompatible with
        | true =>
          simp [rate, org_statistics, howner, happroved, hoss]
          ring
        | false =>
          simp [rate, org_statistics, howner, happroved, hoss]
          ring
      | false =>
        cases hoss : d.license_gplcompatible with
        | true =>
          simp [rate, org_statistics, howner, happroved, hoss]
          ring
        | false =>
          simp [rate, org_statistics, howner, happroved, hoss]
          ring
    · have hsum : charges params (d :: devices) id = charges params devices id := by simp [charges, howner]
      rw [hsum, ← ih]
      simp [rate, org_statistics, howner]

/-! ## Updates -/

/-- The whole weeks that have passed. -/
theorem timestampdiff_spec (since now : Int) :
    since + timestampdiff since now * week ≤ now ∧ now < since + (timestampdiff since now + 1) * week := by
  simp only [timestampdiff, week]
  omega

theorem update_eq (now : Int) (org : Organization) :
    update params devices now org = addWeeks params devices org (timestampdiff org.last_credit_update now) := by
  rw [addWeeks, ← rate_eq]
  rfl

/-- From whole weeks later on, so many fewer weeks pass. -/
theorem timestampdiff_later (since now weeks : Int) :
    timestampdiff (since + weeks * week) now = timestampdiff since now - weeks := by
  simp only [timestampdiff, week]
  omega

theorem update_update (org : Organization) (before now : Int) :
    update params devices now (update params devices before org) = update params devices now org := by
  rw [update_eq, update_eq, update_eq]
  have hlast : (addWeeks params devices org (timestampdiff org.last_credit_update before)).last_credit_update =
      org.last_credit_update + timestampdiff org.last_credit_update before * week := rfl
  rw [hlast, timestampdiff_later]
  simp only [addWeeks, Organization.mk.injEq, true_and]
  constructor
  · ring
  · ring

theorem apply_apply (orgs : List Organization) (before now : Int) :
    applyWeeklyCreditUpdate params devices (applyWeeklyCreditUpdate params devices orgs before) now =
      applyWeeklyCreditUpdate params devices orgs now := by
  rw [applyWeeklyCreditUpdate, applyWeeklyCreditUpdate, applyWeeklyCreditUpdate, List.map_map]
  exact List.map_congr_left fun org _ => update_update params devices org before now

theorem runs_concat (orgs : List Organization) (times : List Int) (now : Int) :
    (times ++ [now]).foldl (applyWeeklyCreditUpdate params devices) orgs =
      applyWeeklyCreditUpdate params devices orgs now := by
  induction times generalizing orgs with
  | nil => rfl
  | cons before times ih =>
    rw [List.cons_append, List.foldl_cons, ih, apply_apply]

theorem runs_eq (orgs : List Organization) (times : List Int) (now : Int) :
    (times ++ [now]).foldl (applyWeeklyCreditUpdate params devices) orgs =
        orgs.map (fun org => addWeeks params devices org (timestampdiff org.last_credit_update now)) ∧
      ∀ org ∈ (times ++ [now]).foldl (applyWeeklyCreditUpdate params devices) orgs, org.last_credit_update ≤ now := by
  have hruns : (times ++ [now]).foldl (applyWeeklyCreditUpdate params devices) orgs =
      orgs.map (fun org => addWeeks params devices org (timestampdiff org.last_credit_update now)) := by
    rw [runs_concat, applyWeeklyCreditUpdate]
    exact List.map_congr_left fun org _ => update_eq params devices now org
  refine ⟨hruns, ?_⟩
  intro org horg
  rw [hruns] at horg
  obtain ⟨old, -, rfl⟩ := List.mem_map.mp horg
  exact (timestampdiff_spec old.last_credit_update now).1

end GenieCloud.Thingpedia.WeeklyCredits
