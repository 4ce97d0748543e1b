/-
  GenieCloud.Training.DevicePattern — the pattern that is to find the programs of some devices
  (the constructors and transactions of `training/lib/dataset_generator.js` and
  `training/tasks/update-dataset.js`).

  A stored program is a list of tokens with blanks between them, `@com.bing . web_search ( ) ;`.
  The pattern asks for a blank, then `@com.bing.` with the name of a function, then a blank or
  the end; or for `device:com.bing` in place of the second. `test_forDevices`: it finds the
  programs that have such a token after the first. A function is used in three tokens, and the
  first of a program has no blank before it.

  Both engines (`rlike` of the database, `RegExp`) read the pattern as `Lib.Regex` does.
-/

import GenieCloud.Lib.Regex
import GenieCloud.Lib.SplitOn

namespace GenieCloud.Training.DevicePattern

open GenieCloud.Lib
open Regex (Frame Reader read parse lit ofAtoms ofAlternatives Matches)

/-! ## Kinds and tokens -/

/-- What the name of a class is made of. -/
def kindChar (c : Char) : Bool := c.isAlphanum || c == '_' || c == '-' || c == '.'

/-- The kind of a schema. -/
structure Kind where
  name : List Char
  valid : ∀ c ∈ name, kindChar c = true
  deriving DecidableEq

/-- The tokens of a stored program. -/
def tokens (target_code : String) : List (List Char) := target_code.toList.splitOn ' '

/-! ## The pattern -/

/-- `d.replace(/[.\\]/g, '\\$&')` -/
def escapeDevice (d : List Char) : List Char := d.flatMap fun c => if c = '.' || c = '\\' then ['\\', c] else [c]

def escapedDevices (devices : List Kind) : List Char := ['|'].intercalate (devices.map fun d => escapeDevice d.name)

def pat1 (devices : List Kind) : List Char := " @(".toList ++ (escapedDevices devices ++ ")\\.[A-Za-z0-9_]+( |$)".toList)

def pat2 (devices : List Kind) : List Char := " device:(".toList ++ (escapedDevices devices ++ ")( |$)".toList)

def forDevicesPattern (devices : List Kind) : List Char := '(' :: (pat1 devices ++ '|' :: (pat2 devices ++ [')']))

/-- `_forDevicesPattern`; `null` and no devices stand for all of them. -/
def pattern (forDevices : Option (List Kind)) : Option (List Char) :=
  match forDevices with
  | some devices => if devices.isEmpty then none else some (forDevicesPattern devices)
  | none => none

/-! ## What it is to find -/

/-- `[A-Za-z0-9_]` -/
def wordRanges : List (Char × Char) := [('A', 'Z'), ('a', 'z'), ('0', '9'), ('_', '_')]

/-- A token that the pattern finds. -/
def Names (devices : List Kind) (token : List Char) : Prop :=
  ∃ d ∈ devices, token = "device:".toList ++ d.name ∨
    ∃ name, name ≠ [] ∧ (∀ c ∈ name, Regex.inRanges wordRanges c = true) ∧ token = '@' :: d.name ++ '.' :: name

/-- The selectors of a program: the tokens with an `@` that are not in a quoted string. -/
def selectors : (quoted : Bool) → List (List Char) → List (List Char)
  | _, [] => []
  | quoted, token :: tokens =>
    if token = ['"'] then selectors (!quoted) tokens
    else match quoted, token with
      | false, '@' :: kind => kind :: selectors quoted tokens
      | _, _ => selectors quoted tokens

/-- The program uses a function of one of the devices: in a program a selector stands before a
    function. -/
def Uses (devices : List Kind) (target_code : String) : Prop := ∃ d ∈ devices, d.name ∈ selectors false (tokens target_code)

instance (devices : List Kind) (target_code : String) : Decidable (Uses devices target_code) :=
  inferInstanceAs (Decidable (∃ d ∈ devices, d.name ∈ selectors false (tokens target_code)))

/-- The program has a token after the first that the pattern finds. -/
def HasToken (devices : List Kind) (target_code : String) : Prop := ∃ token ∈ (tokens target_code).tail, Names devices token

/-! ## Reading the pattern -/

/-- The names as alternatives. -/
def literals (devices : List Kind) : List (List Regex) := devices.map fun d => d.name.map lit

theorem foldlM_read_kindChar {c : Char} (hc : kindChar c = true) (frame : Frame) (stack : List Frame) (rest : List Char) :
    (escapeDevice [c] ++ rest).foldlM read ⟨.plain, frame, stack⟩ =
      rest.foldlM read ⟨.plain, frame.push (lit c), stack⟩ := by
  by_cases hdot : c = '.'
  · subst hdot
    exact Regex.foldlM_read_escaped rfl frame stack rest
  · have hmeta : c ∉ Regex.metachars := fun hmem => by
      have hall : (Regex.metachars.all fun c => c == '.' || !kindChar c) = true := rfl
      have hother := List.all_eq_true.mp hall c hmem
      rw [hc, Bool.not_true, Bool.or_false, beq_iff_eq] at hother
      exact hdot hother
    have hslash : c ≠ '\\' := fun h => hmeta (h ▸ by decide)
    have hescape : escapeDevice [c] = [c] := by simp [escapeDevice, hdot, hslash]
    rw [hescape, List.singleton_append, List.foldlM_cons, Regex.read_literal hmeta]
    rfl

theorem foldlM_read_name {name : List Char} (hname : ∀ c ∈ name, kindChar c = true) (alternatives : List (List Regex))
    (atoms : List Regex) (stack : List Frame) (rest : List Char) :
    (escapeDevice name ++ rest).foldlM read ⟨.plain, ⟨alternatives, atoms⟩, stack⟩ =
      rest.foldlM read ⟨.plain, ⟨alternatives, atoms ++ name.map lit⟩, stack⟩ := by
  induction name generalizing atoms with
  | nil =>
    rw [List.map_nil, List.append_nil]
    rfl
  | cons c name ih =>
    obtain ⟨hc, hname⟩ := List.forall_mem_cons.mp hname
    have hsplit : escapeDevice (c :: name) = escapeDevice [c] ++ escapeDevice name := by
      simp [escapeDevice, List.flatMap_cons]
    rw [hsplit, List.append_assoc, foldlM_read_kindChar hc, Frame.push, ih hname, List.append_assoc]
    rfl

/-- After the names, the last of them is being read. -/
theorem foldlM_read_devices {devices : List Kind} (hdevices : devices ≠ []) (alternatives : List (List Regex))
    (stack : List Frame) (rest : List Char) : ∃ before last, before ++ [last] = alternatives ++ literals devices ∧
      (escapedDevices devices ++ rest).foldlM read ⟨.plain, ⟨alternatives, []⟩, stack⟩ =
        rest.foldlM read ⟨.plain, ⟨before, last⟩, stack⟩ := by
  induction devices generalizing alternatives with
  | nil => exact absurd rfl hdevices
  | cons d devices ih =>
    by_cases hnil : devices = []
    · subst hnil
      refine ⟨alternatives, d.name.map lit, rfl, ?_⟩
      rw [escapedDevices, List.map_singleton, List.intercalate_singleton, foldlM_read_name d.valid, List.nil_append]
    · obtain ⟨before, last, hbefore, hread⟩ := ih hnil (alternatives ++ [d.name.map lit])
      refine ⟨before, last, by rw [hbefore, literals, List.append_assoc]; rfl, ?_⟩
      have hsplit : escapedDevices (d :: devices) ++ rest =
          escapeDevice d.name ++ ('|' :: (escapedDevices devices ++ rest)) := by
        rw [escapedDevices, List.map_cons, List.intercalate_cons_of_ne_nil (by simpa using hnil), ← escapedDevices]
        simp
      rw [hsplit, foldlM_read_name d.valid, ← hread]
      rfl

/-- `( |$)` -/
def boundary : Regex := ofAlternatives [[lit ' ']] [.eol]

/-- The expressions of the two patterns, with that of the names. -/
def regex1 (names : Regex) : List Regex := [lit ' ', lit '@', names, lit '.', .plus (.set wordRanges), boundary]

def regex2 (names : Regex) : List Regex := [' ', 'd', 'e', 'v', 'i', 'c', 'e', ':'].map lit ++ [names] ++ [boundary]

section Segments

variable (before : List (List Regex)) (last atoms : List Regex) (stack : List Frame)

theorem read_open : ('(' :: " @(".toList).foldlM read ⟨.plain, .start, []⟩ =
    some ⟨.plain, ⟨[], []⟩, [⟨[], [lit ' ', lit '@']⟩, .start]⟩ := rfl

theorem read_function : ")\\.[A-Za-z0-9_]+( |$)".toList.foldlM read
      ⟨.plain, ⟨before, last⟩, ⟨[], [lit ' ', lit '@']⟩ :: stack⟩ =
    some ⟨.plain, ⟨[], regex1 (ofAlternatives before last)⟩, stack⟩ := by
  unfold regex1 boundary wordRanges
  rfl

theorem read_next : ('|' :: " device:(".toList).foldlM read ⟨.plain, ⟨[], atoms⟩, [.start]⟩ =
    some ⟨.plain, ⟨[], []⟩, [⟨[atoms], [' ', 'd', 'e', 'v', 'i', 'c', 'e', ':'].map lit⟩, .start]⟩ := rfl

theorem read_close : (")( |$)".toList ++ [')']).foldlM read
      ⟨.plain, ⟨before, last⟩, [⟨[atoms], [' ', 'd', 'e', 'v', 'i', 'c', 'e', ':'].map lit⟩, .start]⟩ =
    some ⟨.plain, ⟨[], [ofAlternatives [atoms] (regex2 (ofAlternatives before last))]⟩, []⟩ := by
  unfold regex2 boundary
  rfl

end Segments

theorem parse_forDevicesPattern {devices : List Kind} (hdevices : devices ≠ []) :
    ∃ names names', (∀ cs rest, Matches names cs rest ↔ ∃ d ∈ devices, cs = d.name ++ rest) ∧
      (∀ cs rest, Matches names' cs rest ↔ ∃ d ∈ devices, cs = d.name ++ rest) ∧
      parse (forDevicesPattern devices) = some (ofAtoms [ofAlternatives [regex1 names] (regex2 names')]) := by
  have hmatches : ∀ before last, before ++ [last] = [] ++ literals devices → ∀ cs rest,
      Matches (ofAlternatives before last) cs rest ↔ ∃ d ∈ devices, cs = d.name ++ rest := by
    intro before last heq cs rest
    rw [Regex.matches_ofAlternatives, heq, List.nil_append, literals]
    simp only [List.mem_map, exists_exists_and_eq_and, Regex.matches_literals]
  have hpattern : ∀ e a f b c : List Char, '(' :: ((a ++ (e ++ f)) ++ '|' :: ((b ++ (e ++ c)) ++ [')'])) =
      ('(' :: a) ++ (e ++ (f ++ (('|' :: b) ++ (e ++ (c ++ [')']))))) := by
    intro e a f b c
    simp only [List.append_assoc, List.cons_append]
  obtain ⟨before, last, hnames, hread⟩ := foldlM_read_devices hdevices [] [⟨[], [lit ' ', lit '@']⟩, .start]
    (")\\.[A-Za-z0-9_]+( |$)".toList ++
      (('|' :: " device:(".toList) ++ (escapedDevices devices ++ (")( |$)".toList ++ [')']))))
  obtain ⟨before', last', hnames', hread'⟩ := foldlM_read_devices hdevices []
    [⟨[regex1 (ofAlternatives before last)], [' ', 'd', 'e', 'v', 'i', 'c', 'e', ':'].map lit⟩, .start]
    (")( |$)".toList ++ [')'])
  refine ⟨_, _, hmatches before last hnames, hmatches before' last' hnames', ?_⟩
  have hfold : (forDevicesPattern devices).foldlM read ⟨.plain, .start, []⟩ = some ⟨.plain, ⟨[], [ofAlternatives
      [regex1 (ofAlternatives before last)] (regex2 (ofAlternatives before' last'))]⟩, []⟩ := by
    refine (congrArg (List.foldlM read _) (hpattern (escapedDevices devices) _ _ _ _)).trans ?_
    refine (Regex.foldlM_read_append read_open _).trans (hread.trans ?_)
    refine (Regex.foldlM_read_append (read_function before last _) _).trans ?_
    refine (Regex.foldlM_read_append (read_next _) _).trans (hread'.trans ?_)
    exact read_close before' last' _
  rw [parse, hfold]
  rfl

/-! ## What the pattern finds -/

theorem matches_boundary {cs rest : List Char} : Matches boundary cs rest ↔ cs = ' ' :: rest ∨ (cs = [] ∧ rest = []) := by
  rw [boundary, Regex.matches_ofAlternatives]
  simp only [List.singleton_append, List.mem_cons, List.not_mem_nil, or_false, exists_eq_or_imp, exists_eq_left,
    Regex.matches_ofAtoms_singleton, Regex.matches_lit, Regex.matches_eol]

section Matches

variable {devices : List Kind} {names : Regex} {cs rest : List Char}

theorem matches_regex1 (hnames : ∀ cs rest, Matches names cs rest ↔ ∃ d ∈ devices, cs = d.name ++ rest) :
    Matches (ofAtoms (regex1 names)) cs rest ↔ ∃ d ∈ devices, ∃ name tail, name ≠ [] ∧
      (∀ c ∈ name, Regex.inRanges wordRanges c = true) ∧ cs = ' ' :: ('@' :: d.name ++ '.' :: name ++ tail) ∧
      Matches boundary tail rest := by
  simp only [regex1, ofAtoms, Regex.matches_seq, Regex.matches_empty, Regex.matches_lit, Regex.matches_plus_set, hnames]
  constructor
  · rintro ⟨_, rfl, _, rfl, _, ⟨d, hd, rfl⟩, _, rfl, tail, ⟨name, hne, hname, rfl⟩, _, hboundary, rfl⟩
    exact ⟨d, hd, name, tail, hne, hname, by simp, hboundary⟩
  · rintro ⟨d, hd, name, tail, hne, hname, rfl, hboundary⟩
    exact ⟨_, rfl, _, rfl, _, ⟨d, hd, by simp⟩, _, rfl, tail, ⟨name, hne, hname, rfl⟩, _, hboundary, rfl⟩

theorem matches_regex2 (hnames : ∀ cs rest, Matches names cs rest ↔ ∃ d ∈ devices, cs = d.name ++ rest) :
    Matches (ofAtoms (regex2 names)) cs rest ↔ ∃ d ∈ devices, ∃ tail,
      cs = ' ' :: ("device:".toList ++ d.name ++ tail) ∧ Matches boundary tail rest := by
  simp only [regex2, Regex.matches_ofAtoms_append, Regex.matches_literals, Regex.matches_ofAtoms_singleton, hnames]
  constructor
  · rintro ⟨tail, ⟨_, rfl, d, hd, rfl⟩, hboundary⟩
    exact ⟨d, hd, tail, rfl, hboundary⟩
  · rintro ⟨d, hd, tail, rfl, hboundary⟩
    exact ⟨tail, ⟨_, rfl, d, hd, rfl⟩, hboundary⟩

end Matches

/-- A blank before it, and a blank or the end after it. -/
theorem matches_pattern {devices : List Kind} {names names' : Regex} {cs rest : List Char}
    (hnames : ∀ cs rest, Matches names cs rest ↔ ∃ d ∈ devices, cs = d.name ++ rest)
    (hnames' : ∀ cs rest, Matches names' cs rest ↔ ∃ d ∈ devices, cs = d.name ++ rest) :
    Matches (ofAtoms [ofAlternatives [regex1 names] (regex2 names')]) cs rest ↔
      ∃ token tail, Names devices token ∧ cs = ' ' :: (token ++ tail) ∧ Matches boundary tail rest := by
  rw [Regex.matches_ofAtoms_singleton, Regex.matches_ofAlternatives]
  simp only [List.singleton_append, List.mem_cons, List.not_mem_nil, or_false, exists_eq_or_imp, exists_eq_left,
    matches_regex1 hnames, matches_regex2 hnames']
  constructor
  · rintro (⟨d, hd, name, tail, hne, hname, rfl, hboundary⟩ | ⟨d, hd, tail, rfl, hboundary⟩)
    · exact ⟨_, tail, ⟨d, hd, .inr ⟨name, hne, hname, rfl⟩⟩, rfl, hboundary⟩
    · exact ⟨_, tail, ⟨d, hd, .inl rfl⟩, rfl, hboundary⟩
  · rintro ⟨token, tail, ⟨d, hd, rfl | ⟨name, hne, hname, rfl⟩⟩, rfl, hboundary⟩
    · exact .inr ⟨d, hd, tail, rfl, hboundary⟩
    · exact .inl ⟨d, hd, name, tail, hne, hname, rfl, hboundary⟩

/-- No name has a blank in it. -/
theorem Names.no_blank {devices : List Kind} {token : List Char} (h : Names devices token) : ' ' ∉ token := by
  obtain ⟨d, -, hd⟩ := h
  have hkind : ' ' ∉ d.name := fun hmem => absurd (d.valid ' ' hmem) (by decide)
  rcases hd with rfl | ⟨name, -, hname, rfl⟩
  · rw [List.mem_append, not_or]
    exact ⟨by decide, hkind⟩
  · have hword : ' ' ∉ name := fun hmem => absurd (hname ' ' hmem) (by decide)
    simp [hkind, hword]

theorem Names.head {devices : List Kind} {token : List Char} (h : Names devices token) :
    token.head? = some 'd' ∨ token.head? = some '@' := by
  obtain ⟨d, -, rfl | ⟨name, -, -, rfl⟩⟩ := h
  · exact .inl rfl
  · exact .inr rfl

/-- The pattern can be read, and finds the programs with such a token after the first. -/
theorem test_forDevices {devices : List Kind} (hdevices : devices ≠ []) : ∃ r, parse (forDevicesPattern devices) = some r ∧
    ∀ target_code : String, r.test target_code.toList = true ↔ HasToken devices target_code := by
  obtain ⟨names, names', hnames, hnames', hparse⟩ := parse_forDevicesPattern hdevices
  refine ⟨_, hparse, fun target_code => ?_⟩
  have hblank : ∀ token ∈ tokens target_code, ' ' ∉ token := fun token h => SplitOn.notMem_of_mem_splitOn h
  have htext : [' '].intercalate (tokens target_code) = target_code.toList := List.intercalate_splitOn ' '
  rw [Regex.test_iff, ← htext]
  constructor
  · intro h
    obtain ⟨before, cs, rest, htext, hmatches⟩ := h
    obtain ⟨token, tail, htoken, rfl, hboundary⟩ := (matches_pattern hnames hnames').mp hmatches
    refine ⟨token, (SplitOn.mem_tail_iff hblank htoken.no_blank).mpr ⟨before, tail, htext, ?_⟩, htoken⟩
    rcases matches_boundary.mp hboundary with rfl | ⟨rfl, -⟩
    · exact .inr ⟨rest, rfl⟩
    · exact .inl rfl
  · intro h
    obtain ⟨token, hmem, htoken⟩ := h
    obtain ⟨before, tail, htext, htail⟩ := (SplitOn.mem_tail_iff hblank htoken.no_blank).mp hmem
    have hboundary : ∃ rest, Matches boundary tail rest := by
      rcases htail with rfl | ⟨rest, rfl⟩
      · exact ⟨[], matches_boundary.mpr (.inr ⟨rfl, rfl⟩)⟩
      · exact ⟨rest, matches_boundary.mpr (.inl rfl)⟩
    obtain ⟨rest, hboundary⟩ := hboundary
    exact ⟨before, _, rest, htext, (matches_pattern hnames hnames').mpr ⟨token, tail, htoken, rfl, hboundary⟩⟩

end GenieCloud.Training.DevicePattern
