/-
  GenieCloud.Util.ValidateTag — which identifiers may be chosen (`validateTag` of
  `util/validation.ts`).

  `validateTag` is a recognizer by hand: a regular expression on the whole text, one on
  its end, checks on each part and a test of who asks. `validateTag_iff` says that it
  accepts the identifiers of a grammar, for those who may choose them, and so nothing with
  a path separator or an empty part.
-/

import GenieCloud.Lib.Result
import GenieCloud.Lib.SplitOn

namespace GenieCloud.Util.ValidateTag

open GenieCloud.Lib.Result GenieCloud.Lib.SplitOn

/-! ## The recognizer -/

def FORBIDDEN_NAMES : List String :=
  ["__count__", "__noSuchMethod__", "__parent__", "__proto__", "constructor", "__defineGetter__", "__defineSetter__",
    "__lookupGetter__", "__lookupSetter__", "eval", "hasOwnProperty", "isPrototypeOf", "propertyIsEnumerable",
    "toLocaleString", "toSource", "toString", "valueOf"]

def extensions : List String :=
  ["js", "json", "css", "htm", "html", "xml", "jpg", "jpeg", "png", "gif", "bmp", "ico", "tif", "tiff", "woff"]

/-- What the check reads of a row of `users`. -/
structure User where
  /-- An `int` column. -/
  roles : BitVec 32
  developer_org : Option Nat
  deriving DecidableEq, Repr

/-- `/^([A-Za-z_][A-Za-z0-9_.-]*)$/` -/
def wellFormed : List Char → Bool
  | [] => false
  | c :: cs => (c.isAlpha || c == '_') && cs.all fun c => c.isAlphanum || c == '_' || c == '.' || c == '-'

/-- `/\.(js|json|...)$/i` -/
def hasExtension (tag : List Char) : Bool :=
  extensions.any fun ext => ('.' :: ext.toList).isSuffixOf (tag.map Char.toLower)

def checkPart (tag : String) (part : List Char) : Except String Unit :=
  if part.isEmpty || part.head?.any (fun c => c == '-' || c.isDigit) || part.getLast? == some '-' then
    throw s!"Invalid ID {tag}"
  else if FORBIDDEN_NAMES.contains (String.ofList part) then
    throw s!"{tag} is not allowed as ID because it contains the unsafe keyword {String.ofList part}"
  else pure ()

def validateTag (tag : String) (user : User) (adminRole : Option (BitVec 32)) : Except String Unit :=
  if !wellFormed tag.toList then throw s!"Invalid ID {tag}"
  else if hasExtension tag.toList then throw s!"Invalid ID {tag}"
  else do
    let parts := tag.toList.splitOn '.'
    parts.forM (checkPart tag)
    if tag.utf8ByteSize > 128 then throw "The chosen identifier is too long"
    else if adminRole.any fun adminRole => user.roles &&& adminRole == adminRole then return ()
    else if parts.length ≤ 1 then throw s!"Invalid ID {tag}: must contain at least one period"
    else if user.developer_org == some 1 then return ()
    else if parts[0]? == some "org".toList && parts[1]? == some "thingpedia".toList then
      if parts[2]? == some "test".toList || (parts[2]? == some "builtin".toList && parts[3]? == some "test".toList) then return ()
      else throw s!"Invalid ID {tag}: the @org.thingpedia namespace is reserved"
    else return ()

/-! ## The grammar -/

structure Part (part : List Char) : Prop where
  nonempty : part ≠ []
  chars : ∀ c ∈ part, c.isAlphanum = true ∨ c = '_' ∨ c = '-'
  first : ∀ c, part.head? = some c → c.isDigit = false ∧ c ≠ '-'
  last : part.getLast? ≠ some '-'
  allowed : String.ofList part ∉ FORBIDDEN_NAMES

/-- An identifier and its parts. -/
structure Identifier (tag : String) (parts : List (List Char)) : Prop where
  parted : tag.toList = ['.'].intercalate parts
  nonempty : parts ≠ []
  part : ∀ part ∈ parts, Part part
  /-- However the extension is spelled. -/
  extension : ∀ ext ∈ extensions, ∀ stem, tag.toList.map Char.toLower ≠ stem ++ '.' :: ext.toList
  bytes : tag.utf8ByteSize ≤ 128

/-- All the bits of the role. -/
def Holds (user : User) (role : BitVec 32) : Prop := ∀ i, role.getLsbD i = true → user.roles.getLsbD i = true

/-- The identifier begins with these parts. -/
def Under (parts : List (List Char)) (namespaces : List String) : Prop := namespaces.map String.toList <+: parts

/-- Who may choose an identifier. -/
def Permitted (user : User) (adminRole : Option (BitVec 32)) (parts : List (List Char)) : Prop :=
  (∃ role, adminRole = some role ∧ Holds user role) ∨
  (2 ≤ parts.length ∧ user.developer_org = some 1) ∨
  (2 ≤ parts.length ∧ (¬Under parts ["org", "thingpedia"] ∨ Under parts ["org", "thingpedia", "test"] ∨
    Under parts ["org", "thingpedia", "builtin", "test"]))

/-! ## The regular expressions -/

theorem holds_iff (user : User) (role : BitVec 32) : (user.roles &&& role == role) = true ↔ Holds user role := by
  rw [beq_iff_eq]
  constructor
  · intro h i hi
    rw [← h, BitVec.getLsbD_and, Bool.and_eq_true] at hi
    exact hi.1
  · intro h
    apply BitVec.eq_of_getLsbD_eq
    intro i _
    rw [BitVec.getLsbD_and]
    cases hr : role.getLsbD i with
    | false => rw [Bool.and_false]
    | true => rw [h i hr, Bool.and_true]

theorem hasExtension_iff (tag : List Char) :
    hasExtension tag = true ↔ ∃ ext ∈ extensions, ∃ stem, tag.map Char.toLower = stem ++ '.' :: ext.toList := by
  rw [hasExtension, List.any_eq_true]
  refine exists_congr fun ext => and_congr_right fun _ => ?_
  rw [List.isSuffixOf_iff_suffix]
  exact exists_congr fun stem => eq_comm

/-! ## The checks -/

theorem pure_else_ok {c : Prop} [Decidable c] {x : Except String Unit} :
    (if c then pure () else x) = .ok () ↔ c ∨ x = .ok () := by
  by_cases h : c
  · rw [if_pos h]
    exact iff_of_true rfl (Or.inl h)
  · rw [if_neg h, or_iff_right h]

theorem checkPart_iff (tag : String) (part : List Char) :
    checkPart tag part = .ok () ↔ part ≠ [] ∧ (∀ c, part.head? = some c → c.isDigit = false ∧ c ≠ '-') ∧
      part.getLast? ≠ some '-' ∧ String.ofList part ∉ FORBIDDEN_NAMES := by
  have hshape : (part.isEmpty || part.head?.any (fun c => c == '-' || c.isDigit) || part.getLast? == some '-') = false ↔
      part ≠ [] ∧ (∀ c, part.head? = some c → c.isDigit = false ∧ c ≠ '-') ∧ part.getLast? ≠ some '-' := by
    rcases part with _ | ⟨c, cs⟩
    · simp
    · simp only [Bool.or_eq_false_iff, List.isEmpty_cons, List.head?_cons, Option.any_some, beq_eq_false_iff_ne, ne_eq,
        reduceCtorEq, not_false_eq_true, true_and, Option.some.injEq, forall_eq']
      exact and_congr_left fun _ => and_comm
  rw [checkPart, throw_else_ok, Bool.not_eq_true, hshape, throw_else_ok, List.contains_iff_mem]
  simp only [and_assoc]
  exact and_congr_right fun _ => and_congr_right fun _ => and_congr_right fun _ => and_iff_left rfl

theorem under_nil (parts : List (List Char)) : Under parts [] := List.nil_prefix

theorem under_cons (name : String) (names : List String) (parts : List (List Char)) :
    Under parts (name :: names) ↔ parts[0]? = some name.toList ∧ Under (parts.drop 1) names := by
  rcases parts with _ | ⟨part, parts⟩
  · exact iff_of_false (fun h => List.cons_ne_nil _ _ (List.prefix_nil.mp h)) fun h => absurd h.1 nofun
  · rw [Under, List.map_cons, List.cons_prefix_cons, List.getElem?_cons_zero, Option.some.injEq, eq_comm]
    exact Iff.rfl

theorem under_two (parts : List (List Char)) : Under parts ["org", "thingpedia"] ↔
    (parts[0]? == some "org".toList && parts[1]? == some "thingpedia".toList) = true := by
  simp only [under_cons, under_nil, and_true, List.getElem?_drop, Nat.add_zero, Bool.and_eq_true, beq_iff_eq]

/-- The two namespaces that anyone may use. -/
theorem under_test (parts : List (List Char)) :
    Under parts ["org", "thingpedia", "test"] ∨ Under parts ["org", "thingpedia", "builtin", "test"] ↔
      Under parts ["org", "thingpedia"] ∧
        (parts[2]? == some "test".toList || (parts[2]? == some "builtin".toList && parts[3]? == some "test".toList)) = true := by
  simp only [under_cons, under_nil, and_true, List.getElem?_drop, List.drop_drop, Nat.add_zero, Nat.reduceAdd, Bool.or_eq_true,
    Bool.and_eq_true, beq_iff_eq, ← and_or_left, and_assoc]

/-- The checks one after another. -/
theorem validateTag_ok (tag : String) (user : User) (adminRole : Option (BitVec 32)) :
    validateTag tag user adminRole = .ok () ↔
      wellFormed tag.toList = true ∧ hasExtension tag.toList = false ∧
      (∀ part ∈ tag.toList.splitOn '.', checkPart tag part = .ok ()) ∧ tag.utf8ByteSize ≤ 128 ∧
      Permitted user adminRole (tag.toList.splitOn '.') := by
  have hbind : ∀ (x y : Except String Unit), (x >>= fun _ => y) = .ok () ↔ x = .ok () ∧ y = .ok () := by
    intro x y
    cases x with
    | error e => exact iff_of_false nofun fun h => absurd h.1 nofun
    | ok u => exact (and_iff_right rfl).symm
  have hadmin : adminRole.any (fun adminRole => user.roles &&& adminRole == adminRole) = true ↔
      ∃ role, adminRole = some role ∧ Holds user role := by
    rw [Option.any_eq_true]
    exact exists_congr fun role => and_congr_right fun _ => holds_iff user role
  rw [validateTag, throw_else_ok, throw_else_ok, hbind, forM_ok, throw_else_ok, pure_else_ok, throw_else_ok, pure_else_ok,
    hadmin, Bool.not_eq_true', Bool.not_eq_false, Bool.not_eq_true, gt_iff_lt, Nat.not_lt, Nat.not_le,
    Permitted]
  refine and_congr_right fun _ => and_congr_right fun _ => and_congr_right fun _ => and_congr_right fun _ => or_congr_right ?_
  rw [← and_or_left]
  refine and_congr_right fun _ => or_congr beq_iff_eq ?_
  generalize tag.toList.splitOn '.' = parts
  by_cases ho : Under parts ["org", "thingpedia"]
  · rw [if_pos ((under_two parts).mp ho), pure_else_ok, under_test, and_iff_right ho, or_iff_right (not_not_intro ho)]
    exact or_iff_left nofun
  · rw [if_neg fun h => ho ((under_two parts).mpr h)]
    exact iff_of_true rfl (Or.inl ho)

/-! ## Parts -/

theorem Part.noDot {part : List Char} (h : Part part) : '.' ∉ part := by
  intro hdot
  rcases h.chars '.' hdot with hc | hc | hc
  · exact absurd hc (by decide)
  · exact absurd hc (by decide)
  · exact absurd hc (by decide)

theorem Identifier.splitOn_eq {tag : String} {parts : List (List Char)} (h : Identifier tag parts) :
    tag.toList.splitOn '.' = parts := by
  rw [h.parted, List.splitOn_intercalate '.' (fun part hp => (h.part part hp).noDot) h.nonempty]

/-- The whole is made of the characters of the parts, and dots. -/
theorem wellFormed_of_parts {tag : String} {parts : List (List Char)} (h : Identifier tag parts) :
    wellFormed tag.toList = true := by
  have hchar : ∀ c ∈ tag.toList, c = '.' ∨ c.isAlphanum = true ∨ c = '_' ∨ c = '-' := by
    intro c hc
    by_cases hdot : c = '.'
    · exact Or.inl hdot
    · rw [h.parted, mem_intercalate_singleton hdot] at hc
      obtain ⟨part, hp, hc⟩ := hc
      exact Or.inr ((h.part part hp).chars c hc)
  obtain ⟨first, rest, hparts⟩ := List.exists_cons_of_ne_nil h.nonempty
  have hpart := h.part first (hparts ▸ List.mem_cons_self ..)
  obtain ⟨c, cs, hfirst⟩ := List.exists_cons_of_ne_nil hpart.nonempty
  obtain ⟨tail, htag⟩ : ∃ tail, tag.toList = c :: tail := by
    rw [h.parted, hparts, hfirst]
    by_cases hr : rest = []
    · exact ⟨cs, by rw [hr, List.intercalate_singleton]⟩
    · exact ⟨_, by rw [List.intercalate_cons_of_ne_nil hr, List.cons_append, List.cons_append]⟩
  have hc := hpart.first c (by rw [hfirst]; rfl)
  have hhead : c.isAlpha = true ∨ c = '_' := by
    rcases hpart.chars c (hfirst ▸ List.mem_cons_self ..) with ha | ha | ha
    · rw [Char.isAlphanum, hc.1, Bool.or_false] at ha
      exact Or.inl ha
    · exact Or.inr ha
    · exact absurd ha hc.2
  rw [htag, wellFormed, Bool.and_eq_true, Bool.or_eq_true, beq_iff_eq, List.all_eq_true]
  refine ⟨hhead, ?_⟩
  intro d hd
  simp only [Bool.or_eq_true, beq_iff_eq]
  rcases hchar d (htag ▸ List.mem_cons_of_mem _ hd) with h | h | h | h
  · exact Or.inl (Or.inr h)
  · exact Or.inl (Or.inl (Or.inl h))
  · exact Or.inl (Or.inl (Or.inr h))
  · exact Or.inr h

theorem char_of_wellFormed {tag : List Char} (h : wellFormed tag = true) {c : Char} (hc : c ∈ tag) :
    c.isAlphanum = true ∨ c = '_' ∨ c = '.' ∨ c = '-' := by
  rcases tag with _ | ⟨d, ds⟩
  · exact absurd hc List.not_mem_nil
  · rw [wellFormed, Bool.and_eq_true, Bool.or_eq_true, beq_iff_eq, List.all_eq_true] at h
    rcases List.mem_cons.mp hc with rfl | hc
    · rcases h.1 with ha | ha
      · exact Or.inl (by rw [Char.isAlphanum, ha, Bool.true_or])
      · exact Or.inr (Or.inl ha)
    · have := h.2 c hc
      simpa only [Bool.or_eq_true, beq_iff_eq, or_assoc] using this

/-- What passes the checks is the identifier made of its parts. -/
theorem identifier_iff (tag : String) :
    (wellFormed tag.toList = true ∧ hasExtension tag.toList = false ∧
      (∀ part ∈ tag.toList.splitOn '.', checkPart tag part = .ok ()) ∧ tag.utf8ByteSize ≤ 128) ↔
    Identifier tag (tag.toList.splitOn '.') := by
  have hext : hasExtension tag.toList = false ↔
      ∀ ext ∈ extensions, ∀ stem, tag.toList.map Char.toLower ≠ stem ++ '.' :: ext.toList := by
    rw [Bool.eq_false_iff, ne_eq, hasExtension_iff]
    simp only [not_exists, not_and, ne_eq]
  constructor
  · intro ⟨hw, he, hparts, hb⟩
    refine ⟨(List.intercalate_splitOn '.').symm, List.splitOn_ne_nil _ _, ?_, hext.mp he, hb⟩
    intro part hp
    obtain ⟨hne, hfirst, hlast, hallowed⟩ := (checkPart_iff tag part).mp (hparts part hp)
    refine ⟨hne, ?_, hfirst, hlast, hallowed⟩
    intro c hc
    have hdot : c ≠ '.' := fun h => notMem_of_mem_splitOn hp (h ▸ hc)
    have hmem : c ∈ tag.toList := by
      have hjoin : ['.'].intercalate (tag.toList.splitOn '.') = tag.toList := List.intercalate_splitOn '.'
      rw [← hjoin, mem_intercalate_singleton hdot]
      exact ⟨part, hp, hc⟩
    rcases char_of_wellFormed hw hmem with h | h | h | h
    · exact Or.inl h
    · exact Or.inr (Or.inl h)
    · exact absurd h hdot
    · exact Or.inr (Or.inr h)
  · intro h
    refine ⟨wellFormed_of_parts h, hext.mpr h.extension, ?_, h.bytes⟩
    intro part hp
    have := h.part part hp
    exact (checkPart_iff tag part).mpr ⟨this.nonempty, this.first, this.last, this.allowed⟩

/-- `validateTag` accepts the identifiers of the grammar, for those who may choose them;
    nothing it accepts has a path separator or an empty part. -/
theorem validateTag_iff (tag : String) (user : User) (adminRole : Option (BitVec 32)) :
    (validateTag tag user adminRole = .ok () ↔ ∃ parts, Identifier tag parts ∧ Permitted user adminRole parts) ∧
    (validateTag tag user adminRole = .ok () → '/' ∉ tag.toList ∧ '\\' ∉ tag.toList ∧ [] ∉ tag.toList.splitOn '.') := by
  have hid := identifier_iff tag
  rw [validateTag_ok]
  constructor
  · constructor
    · intro ⟨hw, he, hparts, hb, hperm⟩
      exact ⟨_, hid.mp ⟨hw, he, hparts, hb⟩, hperm⟩
    · intro ⟨parts, hi, hperm⟩
      have heq := hi.splitOn_eq
      rw [← heq] at hi hperm
      obtain ⟨hw, he, hparts, hb⟩ := hid.mpr hi
      exact ⟨hw, he, hparts, hb, hperm⟩
  · intro ⟨hw, he, hparts, hb, _⟩
    have hno : ∀ c, ¬(c.isAlphanum = true ∨ c = '_' ∨ c = '.' ∨ c = '-') → c ∉ tag.toList := fun c hc hm =>
      hc (char_of_wellFormed hw hm)
    refine ⟨hno '/' (by decide), hno '\\' (by decide), ?_⟩
    intro hempty
    exact ((hid.mp ⟨hw, he, hparts, hb⟩).part [] hempty).nonempty rfl

example : validateTag "com.example.light" ⟨0, some 7⟩ (some 4) = .ok () := by decide

end GenieCloud.Util.ValidateTag
