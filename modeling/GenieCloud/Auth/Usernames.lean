/-
  GenieCloud.Auth.Usernames — the username of an account that an identity provider vouches
  for (`autoAdjustUsername` of `util/passport.ts`, `validateUsername` of `util/user.ts`).

  The proposed name is cut, what a username may not have in it is replaced, and a name that is
  refused gets an underscore. If the name is taken it gets a number, from 1 to 5.

  A name of the full length has no room for either: with an underscore it fails the assertion,
  and with a number it is one character too long and is not checked again. The last number is
  used whether it is taken or not. `autoAdjustUsername_iff`: the name returned is valid and new
  exactly if none of these happens.

  The proposed name is in code units; what it becomes is ASCII. The equality of usernames
  (`ci`) is that of the collation.
-/

import GenieCloud.Auth.EmailVerified

namespace GenieCloud.Auth.Usernames

open GenieCloud.Lib
open EmailVerified (UserRow getByName validateUsername INVALID_USERNAMES extensions length toLowerCase)

/-! ## The name -/

def MAX_USERNAME_LENGTH : Nat := 60

/-- `[\w.-]` -/
def nameChar (c : Char) : Bool := c.isAlphanum || c == '_' || c == '.' || c == '-'

/-- `.replace(/[^\w.-]/g, '_')` on a code unit. -/
def replaceUnit (u : Nat) : Char := if u < 0x80 && nameChar (Char.ofNat u) then Char.ofNat u else '_'

/-- Cut and replaced. -/
def cleaned (username : List Nat) : String :=
  let username := if username.length > MAX_USERNAME_LENGTH then username.take MAX_USERNAME_LENGTH else username
  String.ofList (username.map replaceUnit)

/-- With an underscore if it has to be. -/
def adjusted (username : List Nat) : String :=
  if validateUsername (cleaned username) then cleaned username else cleaned username ++ "_"

section

variable (ci : String → String → Bool) (users : Table UserRow)

/-- The loop. A number takes the place of the one before it. -/
def tryNumbers : (attempts : Nat) → (addednumber : Bool) → String → String
  | 0, _, username => username
  | attempts + 1, addednumber, username =>
    let number := toString (5 - (attempts + 1) + 1)
    let username := if addednumber then String.ofList username.toList.dropLast ++ number else username ++ number
    if getByName ci users username = [] then username else tryNumbers attempts true username

def autoAdjustUsername (username : List Nat) : Except String String :=
  let username := adjusted username
  if !validateUsername username then throw "AssertionError"
  else if getByName ci users username = [] then return username
  else return tryNumbers ci users 5 false username

/-! ## What is wanted -/

/-- No user has the name. -/
def Free (username : String) : Prop := getByName ci users username = []

instance (username : String) : Decidable (Free ci users username) :=
  inferInstanceAs (Decidable (getByName ci users username = []))

def Adjusted (result : Except String String) : Prop :=
  ∃ username, result = .ok username ∧ validateUsername username = true ∧ Free ci users username

/-- There is room for what is added, and one of the names that are tried is free. -/
structure Fits (username : List Nat) : Prop where
  underscore : validateUsername (cleaned username) = true ∨ length (cleaned username) < MAX_USERNAME_LENGTH
  number : Free ci users (adjusted username) ∨
    (length (adjusted username) < MAX_USERNAME_LENGTH ∧
      ∃ n, 1 ≤ n ∧ n ≤ 5 ∧ Free ci users (adjusted username ++ toString n))

end

theorem adjusted_ok {ci : String → String → Bool} {users : Table UserRow} {result : Except String String} {username : String}
    (h : result = .ok username) :
    Adjusted ci users result ↔ validateUsername username = true ∧ Free ci users username := by
  constructor
  · intro hadjusted
    obtain ⟨username', hresult, hadjusted⟩ := hadjusted
    obtain rfl : username = username' := Except.ok.inj (h.symm.trans hresult)
    exact hadjusted
  · intro hadjusted
    exact ⟨username, h, hadjusted⟩

theorem not_adjusted_of_throw {ci : String → String → Bool} {users : Table UserRow} {result : Except String String}
    {message : String} (h : result = .error message) : ¬Adjusted ci users result := by
  intro hadjusted
  obtain ⟨username, hresult, -⟩ := hadjusted
  cases h.symm.trans hresult

/-! ## Valid names -/

theorem nameChar_replaceUnit (u : Nat) : nameChar (replaceUnit u) = true := by
  unfold replaceUnit
  split
  · next h => exact (Bool.and_eq_true_iff.mp h).2
  · decide

theorem nameChar_cleaned (username : List Nat) : ∀ c ∈ (cleaned username).toList, nameChar c = true := by
  intro c hc
  rw [cleaned, String.toList_ofList] at hc
  obtain ⟨u, -, rfl⟩ := List.mem_map.mp hc
  exact nameChar_replaceUnit u

theorem toNat_lt_of_nameChar {c : Char} (h : nameChar c = true) : c.toNat < 0x10000 := by
  simp only [nameChar, Bool.or_eq_true, beq_iff_eq] at h
  rcases h with ((h | rfl) | rfl) | rfl
  · exact Nat.lt_of_le_of_lt (Utf16.toNat_of_isAlphanum h).2 (by decide)
  · decide
  · decide
  · decide

/-- Of such characters each is a code unit. -/
theorem length_of_nameChar {s : String} (h : ∀ c ∈ s.toList, nameChar c = true) : length s = s.toList.length := by
  rw [length, Utf16.encode]
  generalize s.toList = cs at h
  induction cs with
  | nil => rfl
  | cons c cs ih =>
    obtain ⟨hc, hcs⟩ := List.forall_mem_cons.mp h
    rw [List.flatMap_cons, List.length_append, ih hcs, Utf16.units_small (toNat_lt_of_nameChar hc), List.length_cons,
      List.length_cons, List.length_nil, Nat.add_comm]

theorem validateUsername_iff (username : String) : validateUsername username = true ↔
    length username ≤ MAX_USERNAME_LENGTH ∧ (∀ name ∈ INVALID_USERNAMES, name.toList ≠ toLowerCase username) ∧
      (∀ c ∈ username.toList, nameChar c = true) ∧ ∀ e ∈ extensions, ¬('.' :: e.toList) <:+ toLowerCase username := by
  have hchars : (username.toList.any fun c => !(c.isAlphanum || c == '_' || c == '.' || c == '-')) = false ↔
      ∀ c ∈ username.toList, nameChar c = true := by
    rw [List.any_eq_false]
    exact forall₂_congr fun c _ => by rw [Bool.not_eq_true', Bool.not_eq_false]; exact Iff.rfl
  rw [validateUsername, Bool.not_eq_true', Bool.or_eq_false_iff, Bool.or_eq_false_iff, Bool.or_eq_false_iff, hchars,
    decide_eq_false_iff_not, Nat.not_lt, List.any_eq_false, List.any_eq_false]
  simp only [beq_iff_eq, List.isSuffixOf_iff_suffix, and_assoc]
  exact Iff.rfl

/-- The underscore and the numbers. -/
def marks : List Char := ['_', '1', '2', '3', '4', '5']

/-- No reserved name and no extension ends in one. -/
theorem mark_last : ∀ x ∈ marks, x.toLower = x ∧ nameChar x = true ∧
    (∀ name ∈ INVALID_USERNAMES, name.toList.getLast? ≠ some x) ∧
    ∀ e ∈ extensions, ('.' :: e.toList).getLast? ≠ some x := by
  have hall : (marks.all fun x => decide (x.toLower = x ∧ nameChar x = true ∧
      (∀ name ∈ INVALID_USERNAMES, name.toList.getLast? ≠ some x) ∧
      ∀ e ∈ extensions, ('.' :: e.toList).getLast? ≠ some x)) = true := rfl
  intro x hx
  exact of_decide_eq_true (List.all_eq_true.mp hall x hx)

theorem validateUsername_append {s : String} (hs : ∀ c ∈ s.toList, nameChar c = true) {x : Char} (hx : x ∈ marks) :
    validateUsername (s ++ String.singleton x) = true ↔ length s < MAX_USERNAME_LENGTH := by
  obtain ⟨hlower, hchar, hreserved, hext⟩ := mark_last x hx
  have hlist : (s ++ String.singleton x).toList = s.toList ++ [x] := by simp
  have hchars : ∀ c ∈ (s ++ String.singleton x).toList, nameChar c = true := by
    rw [hlist]
    exact List.forall_mem_append.mpr ⟨hs, List.forall_mem_singleton.mpr hchar⟩
  have hlow : toLowerCase (s ++ String.singleton x) = s.toList.map Char.toLower ++ [x] := by
    rw [toLowerCase, hlist, List.map_append, List.map_singleton, hlower]
  have hlast : (s.toList.map Char.toLower ++ [x]).getLast? = some x := List.getLast?_concat
  rw [validateUsername_iff, length_of_nameChar hchars, length_of_nameChar hs, hlist, List.length_append,
    List.length_singleton, hlow]
  constructor
  · intro h
    exact h.1
  · intro h
    refine ⟨h, fun name hname heq => hreserved name hname (heq ▸ hlast), hlist ▸ hchars, fun e he hsuffix => ?_⟩
    obtain ⟨start, hstart⟩ := hsuffix
    apply hext e he
    rw [← hlast, ← hstart, List.getLast?_append_of_ne_nil _ (List.cons_ne_nil _ _)]

/-! ## The name with an underscore -/

theorem nameChar_adjusted (username : List Nat) : ∀ c ∈ (adjusted username).toList, nameChar c = true := by
  unfold adjusted
  split
  · exact nameChar_cleaned username
  · rw [String.toList_append]
    have hall : "_".toList.all nameChar = true := rfl
    exact List.forall_mem_append.mpr ⟨nameChar_cleaned username, List.all_eq_true.mp hall⟩

theorem validateUsername_adjusted (username : List Nat) : validateUsername (adjusted username) = true ↔
    validateUsername (cleaned username) = true ∨ length (cleaned username) < MAX_USERNAME_LENGTH := by
  unfold adjusted
  split
  · next h => exact iff_of_true h (.inl h)
  · next h =>
    rw [or_iff_right h]
    exact validateUsername_append (nameChar_cleaned username) (x := '_') (by decide)

/-! ## The numbers -/

section Numbers

variable {ci : String → String → Bool} {users : Table UserRow}

theorem dropLast_number (base : String) {n : Nat} (h : n < 10) :
    String.ofList (base ++ toString n).toList.dropLast = base := by
  have hdigits : (toString n).toList = [Nat.digitChar n] := by
    rw [show toString n = Nat.repr n from rfl, Nat.toList_repr]
    exact Nat.toDigits_of_lt_base h
  rw [String.toList_append, hdigits, List.dropLast_concat, String.ofList_toList]

/-- One attempt, at a name that has perhaps a number from before. -/
theorem tryNumbers_succ {attempts : Nat} (h : attempts < 5) (addednumber : Bool) (username base : String)
    (hbase : (if addednumber then String.ofList username.toList.dropLast else username) = base) :
    tryNumbers ci users (attempts + 1) addednumber username =
      if getByName ci users (base ++ toString (5 - attempts)) = [] then base ++ toString (5 - attempts)
      else tryNumbers ci users attempts true (base ++ toString (5 - attempts)) := by
  have hnumber : 5 - (attempts + 1) + 1 = 5 - attempts := by omega
  rw [tryNumbers, hnumber, ← hbase]
  cases addednumber <;> rfl

variable (ci users) in
/-- The name that is returned has one of the numbers that are left, and it is free unless all
    of these are taken. -/
theorem tryNumbers_spec (base : String) {attempts : Nat} (h : attempts < 5) (addednumber : Bool) (username : String)
    (hbase : (if addednumber then String.ofList username.toList.dropLast else username) = base) :
    ∃ n, 5 - attempts ≤ n ∧ n ≤ 5 ∧ tryNumbers ci users (attempts + 1) addednumber username = base ++ toString n ∧
      (Free ci users (base ++ toString n) ∨ ∀ n, 5 - attempts ≤ n → n ≤ 5 → ¬Free ci users (base ++ toString n)) := by
  induction attempts generalizing addednumber username with
  | zero =>
    rw [tryNumbers_succ h addednumber username base hbase]
    refine ⟨5, Nat.le_refl _, Nat.le_refl _, ite_self .., ?_⟩
    by_cases hfree : Free ci users (base ++ toString 5)
    · exact .inl hfree
    · refine .inr fun n h1 h2 => ?_
      obtain rfl : n = 5 := Nat.le_antisymm h2 h1
      exact hfree
  | succ attempts ih =>
    rw [tryNumbers_succ h addednumber username base hbase]
    by_cases hfree : getByName ci users (base ++ toString (5 - (attempts + 1))) = []
    · rw [if_pos hfree]
      exact ⟨_, Nat.le_refl _, Nat.sub_le .., rfl, .inl hfree⟩
    · rw [if_neg hfree]
      have hdigit : 5 - (attempts + 1) < 10 := by omega
      obtain ⟨n, h1, h2, heq, hn⟩ := ih (Nat.lt_of_succ_lt h) true _ (dropLast_number base hdigit)
      refine ⟨n, by omega, h2, heq, hn.imp_right fun hall m hm1 hm2 => ?_⟩
      by_cases hm : m = 5 - (attempts + 1)
      · rw [hm]
        exact hfree
      · exact hall m (by omega) hm2

theorem mark_toString {n : Nat} (h1 : 1 ≤ n) (h2 : n ≤ 5) : ∃ x ∈ marks, toString n = String.singleton x := by
  have hcases : n = 1 ∨ n = 2 ∨ n = 3 ∨ n = 4 ∨ n = 5 := by omega
  rcases hcases with rfl | rfl | rfl | rfl | rfl
  · exact ⟨'1', by decide, rfl⟩
  · exact ⟨'2', by decide, rfl⟩
  · exact ⟨'3', by decide, rfl⟩
  · exact ⟨'4', by decide, rfl⟩
  · exact ⟨'5', by decide, rfl⟩

theorem autoAdjustUsername_of_invalid {username : List Nat} (h : ¬validateUsername (adjusted username) = true) :
    autoAdjustUsername ci users username = .error "AssertionError" := by
  rw [Bool.not_eq_true] at h
  rw [autoAdjustUsername, h]
  rfl

theorem autoAdjustUsername_of_valid {username : List Nat} (h : validateUsername (adjusted username) = true) :
    autoAdjustUsername ci users username =
      .ok (if getByName ci users (adjusted username) = [] then adjusted username
        else tryNumbers ci users 5 false (adjusted username)) := by
  rw [autoAdjustUsername, h]
  exact (apply_ite Except.ok _ _ _).symm

/-- The username that is returned is valid and new exactly if the name that was proposed has
    room for what is added to it, and one of the names that are tried is free. -/
theorem autoAdjustUsername_iff (ci : String → String → Bool) (users : Table UserRow) (username : List Nat) :
    Adjusted ci users (autoAdjustUsername ci users username) ↔ Fits ci users username := by
  have hchars := nameChar_adjusted username
  have hvalid := validateUsername_adjusted username
  by_cases hv : validateUsername (adjusted username) = true
  · rw [adjusted_ok (autoAdjustUsername_of_valid hv)]
    by_cases hfree : getByName ci users (adjusted username) = []
    · rw [if_pos hfree]
      exact iff_of_true ⟨hv, hfree⟩ ⟨hvalid.mp hv, .inl hfree⟩
    · rw [if_neg hfree]
      have hspec := tryNumbers_spec ci users (adjusted username) (by decide : 4 < 5) false
        (adjusted username) (if_neg Bool.false_ne_true)
      obtain ⟨n, h1, h2, heq, hn⟩ := hspec
      obtain ⟨x, hx, hstring⟩ := mark_toString h1 h2
      have hroom := validateUsername_append hchars hx
      rw [← hstring] at hroom
      rw [heq, hroom]
      constructor
      · intro h
        exact ⟨hvalid.mp hv, .inr ⟨h.1, n, h1, h2, h.2⟩⟩
      · intro h
        obtain ⟨hlength, m, hm1, hm2, hm⟩ := h.number.resolve_left hfree
        exact ⟨hlength, hn.resolve_right fun hall => hall m hm1 hm2 hm⟩
  · exact iff_of_false (not_adjusted_of_throw (autoAdjustUsername_of_invalid hv)) fun h => hv (hvalid.mpr h.underscore)

end Numbers

/-! ## Names without room -/

/-- A table of users with these names. -/
def named (usernames : List String) : Table UserRow :=
  usernames.foldl (fun users username => users.insert ⟨username, none, false, username, none, none⟩) Table.empty

/-- Of the full length, with an extension and without. -/
def longName (ending : String) : String := String.ofList (List.replicate (60 - ending.toList.length) 'a') ++ ending

/-- One number is one too many; the assertion fails; the last number is taken. -/
theorem no_room :
    ¬Adjusted (· == ·) (named [longName ""])
      (autoAdjustUsername (· == ·) (named [longName ""]) (Utf16.encode (longName "").toList)) ∧
    ¬Adjusted (· == ·) (named []) (autoAdjustUsername (· == ·) (named []) (Utf16.encode (longName ".js").toList)) ∧
    ¬Adjusted (· == ·) (named ["a", "a1", "a2", "a3", "a4", "a5"])
      (autoAdjustUsername (· == ·) (named ["a", "a1", "a2", "a3", "a4", "a5"]) (Utf16.encode "a".toList)) := by
  refine ⟨?_, not_adjusted_of_throw (show _ = Except.error "AssertionError" by rfl), ?_⟩
  · rw [adjusted_ok (show _ = Except.ok (longName "" ++ "1") by decide +kernel)]
    decide +kernel
  · rw [adjusted_ok (show _ = Except.ok "a5" by decide +kernel)]
    decide +kernel

end GenieCloud.Auth.Usernames
