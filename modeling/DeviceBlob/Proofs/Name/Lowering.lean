import DeviceBlob.Name
import DeviceBlob.Proofs.Text.Entries

/-!
# Snake case under any lower case

Which letters have a lower case, and which one, changes from one version of the character tables to
the next.  Here any map stands in the place of the lower case.  Names rely on four properties of it
(`IsLowering`): no character is lost, what is in lower case stays as it is, upper-case letters only
come out where nothing is changed, and the separator is kept.

Snake case goes through a name from left to right, and all that it remembers is whether the last
character that it wrote was a separator (`snakeCharsBy_congr`).  At the start of a name and behind a
separator this is the same, so a joined name is brought into snake case part by part
(`snakeBy_join`).  A name that is in snake case already stays as it is (`snakeBy_snakeBy`).  Together
these are the laws that addresses rest on (`IsNaming`).
-/

namespace DeviceBlob.Name

open Text

/-- What names rely on in the lower case of characters. -/
structure IsLowering (lower : Char → List Char) : Prop where
  /-- No character is lost. -/
  ne_nil : ∀ c, lower c ≠ []
  /-- What is in lower case stays as it is. -/
  idempotent : ∀ c, (lower c).flatMap lower = lower c
  /-- An upper-case letter only comes out where nothing is changed. -/
  unchanged : ∀ c, ∀ d ∈ lower c, Letter.isUpper d = true → lower c = [c]
  /-- The separator is kept. -/
  separator_kept : lower separator = [separator]

variable {lower : Char → List Char}

/-- If a text is its own lower case then so are its characters. -/
theorem lower_eq_of_flatMap_eq (kept : ∀ c, lower c ≠ []) : ∀ {cs : List Char},
    cs.flatMap lower = cs → ∀ c ∈ cs, lower c = [c]
  | [], _, c, mem => absurd mem List.not_mem_nil
  | first :: rest, fixed, c, mem => by
    rw [List.flatMap_cons] at fixed
    obtain ⟨d, others, cons⟩ := List.exists_cons_of_ne_nil (kept first)
    rw [cons, List.cons_append, List.cons.injEq] at fixed
    obtain ⟨rfl, behind⟩ := fixed
    -- The rest takes all of its own room, so the first character has become one character only.
    have room := length_le_length_flatMap kept rest
    have none : others = [] := by
      have lengths := congrArg List.length behind
      rw [List.length_append] at lengths
      exact List.length_eq_zero_iff.1 (by omega)
    rw [none] at cons behind
    rcases List.mem_cons.1 mem with rfl | mem
    · exact cons
    · exact lower_eq_of_flatMap_eq kept behind c mem

namespace IsLowering

/-- What a character becomes in lower case stays as it is.  It is no upper-case letter, unless it is
the character itself. -/
theorem lower_of_mem (lowering : IsLowering lower) {c d : Char} (mem : d ∈ lower c) :
    lower d = [d] ∧ (Letter.isUpper d = true → d = c) := by
  refine ⟨lower_eq_of_flatMap_eq lowering.ne_nil (lowering.idempotent c) d mem, fun upper => ?_⟩
  rw [lowering.unchanged c d mem upper] at mem
  exact List.mem_singleton.1 mem

end IsLowering

/-! ### The conversion -/

/-- The snake case of the rest of a name under the given lower case, given the last character
written so far. -/
def snakeCharsBy (lower : Char → List Char) (last : Option Char) : List Char → List Char
  | [] => []
  | c :: rest =>
    let gap := if Letter.isUpper c && last.any (· != separator) then [separator] else []
    gap ++ lower c ++ snakeCharsBy lower ((lower c).getLast?.or last) rest

/-- The name in snake case under the given lower case. -/
def snakeBy (lower : Char → List Char) (name : String) : String :=
  String.ofList (snakeCharsBy lower none name.toList)

/-- The letters of a name in snake case are those of the scan. -/
theorem toList_snakeBy (lower : Char → List Char) (name : String) :
    (snakeBy lower name).toList = snakeCharsBy lower none name.toList := by
  simp [snakeBy]

/-- The last character written after some characters were brought into snake case. -/
def lastWritten (lower : Char → List Char) (last : Option Char) (cs : List Char) : Option Char :=
  cs.foldl (fun last c => (lower c).getLast?.or last) last

/-- The scan goes on behind the last letter it wrote. -/
theorem snakeCharsBy_append : ∀ (front back : List Char) (last : Option Char),
    snakeCharsBy lower last (front ++ back) =
      snakeCharsBy lower last front ++ snakeCharsBy lower (lastWritten lower last front) back
  | [], _, _ => rfl
  | c :: front, back, last => by
    rw [List.cons_append, snakeCharsBy, snakeCharsBy, snakeCharsBy_append front back, lastWritten,
      lastWritten, List.foldl_cons]
    simp only [List.append_assoc]

/-- All that matters of the last character is whether it was a separator. -/
theorem snakeCharsBy_congr : ∀ {cs : List Char} {last other : Option Char},
    last.any (· != separator) = other.any (· != separator) →
      snakeCharsBy lower last cs = snakeCharsBy lower other cs
  | [], _, _, _ => rfl
  | c :: rest, last, other, same => by
    have next : ((lower c).getLast?.or last).any (· != separator) =
        ((lower c).getLast?.or other).any (· != separator) := by
      cases (lower c).getLast? with
      | none => exact same
      | some written => rfl
    rw [snakeCharsBy, snakeCharsBy, same, snakeCharsBy_congr next]

/-- A character is written as itself if it is its own lower case and no gap comes before it. -/
theorem snakeCharsBy_settled {c : Char} {last : Option Char} (fixed : lower c = [c])
    (noGap : Letter.isUpper c = true → last.any (· != separator) = false) (rest : List Char) :
    snakeCharsBy lower last (c :: rest) = c :: snakeCharsBy lower (some c) rest := by
  cases upper : Letter.isUpper c with
  | false => simp [snakeCharsBy, fixed, upper]
  | true => simp [snakeCharsBy, fixed, upper, noGap upper]

/-- So is a text of characters that are no upper-case letters. -/
theorem snakeCharsBy_append_settled : ∀ {front : List Char} {last : Option Char},
    (∀ c ∈ front, lower c = [c] ∧ Letter.isUpper c = false) → ∀ back : List Char,
      snakeCharsBy lower last (front ++ back) =
        front ++ snakeCharsBy lower (front.getLast?.or last) back
  | [], _, _, _ => rfl
  | c :: rest, last, settled, back => by
    obtain ⟨fixed, notUpper⟩ := settled c List.mem_cons_self
    have behind := @snakeCharsBy_append_settled rest (some c)
      (fun d mem => settled d (List.mem_cons_of_mem _ mem)) back
    have same : rest.getLast?.or (some c) = (c :: rest).getLast?.or last := by
      cases rest with
      | nil => rfl
      | cons d rest =>
        rw [List.getLast?_cons_cons, List.getLast?_eq_some_getLast (List.cons_ne_nil d rest)]
        rfl
    rw [List.cons_append, snakeCharsBy_settled fixed (by simp [notUpper]), behind, same]
    rfl

section Laws

variable (lowering : IsLowering lower)

include lowering

/-- A separator is kept, and a name starts again behind it. -/
theorem snakeCharsBy_separator (last : Option Char) (cs : List Char) :
    snakeCharsBy lower last (separator :: cs) = separator :: snakeCharsBy lower none cs := by
  have notUpper : Letter.isUpper separator = false := rfl
  have restart : snakeCharsBy lower (some separator) cs = snakeCharsBy lower none cs :=
    snakeCharsBy_congr rfl
  rw [snakeCharsBy_settled lowering.separator_kept (by simp [notUpper]), restart]

/-- No character is lost. -/
theorem snakeBy_eq_empty {name : String} (h : snakeBy lower name = "") : name = "" := by
  rw [← String.toList_inj, toList_snakeBy] at h
  rw [← String.toList_inj]
  cases chars : name.toList with
  | nil => rfl
  | cons c rest =>
    rw [chars, snakeCharsBy] at h
    have front := (List.append_eq_nil_iff.1 (List.append_eq_nil_iff.1 h).1).2
    exact absurd front (lowering.ne_nil c)

/-- A joined name is brought into snake case part by part. -/
theorem snakeBy_join (parent child : String) :
    snakeBy lower (join parent child) = join (snakeBy lower parent) (snakeBy lower child) := by
  by_cases root : parent = ""
  · subst root
    rfl
  · have named : snakeBy lower parent ≠ "" := fun empty => root (snakeBy_eq_empty lowering empty)
    rw [← String.toList_inj, toList_snakeBy, toList_join root, snakeCharsBy_append,
      snakeCharsBy_separator lowering, toList_join named, toList_snakeBy, toList_snakeBy]

/-- What was brought into snake case is in snake case. -/
theorem snakeCharsBy_snakeCharsBy : ∀ (cs : List Char) (last : Option Char),
    snakeCharsBy lower last (snakeCharsBy lower last cs) = snakeCharsBy lower last cs
  | [], _ => rfl
  | c :: rest, last => by
    have behind := snakeCharsBy_snakeCharsBy rest ((lower c).getLast?.or last)
    -- A letter without a lower case keeps the gap before it and gets no other one.
    by_cases upper : ∃ d ∈ lower c, Letter.isUpper d = true
    · obtain ⟨d, mem, isUpper⟩ := upper
      obtain ⟨fixed, same⟩ := lowering.lower_of_mem mem
      obtain rfl := same isUpper
      rw [fixed] at behind
      by_cases gap : last.any (· != separator) = true
      · have opened : snakeCharsBy lower last (d :: rest) =
            separator :: d :: snakeCharsBy lower (some d) rest := by
          simp [snakeCharsBy, fixed, isUpper, gap]
        rw [opened, snakeCharsBy_separator lowering, snakeCharsBy_settled fixed fun _ => rfl]
        exact congrArg (separator :: d :: ·) behind
      · have noGap : last.any (· != separator) = false := by simpa using gap
        rw [snakeCharsBy_settled fixed fun _ => noGap, snakeCharsBy_settled fixed fun _ => noGap]
        exact congrArg (d :: ·) behind
    · have settled : ∀ d ∈ lower c, lower d = [d] ∧ Letter.isUpper d = false := by
        intro d mem
        exact ⟨(lowering.lower_of_mem mem).1, by simpa using fun h => upper ⟨d, mem, h⟩⟩
      have kept : ∀ before : Option Char, snakeCharsBy lower before
          (lower c ++ snakeCharsBy lower ((lower c).getLast?.or last) rest) =
            lower c ++ snakeCharsBy lower ((lower c).getLast?.or last) rest := by
        intro before
        have nonempty : (lower c).getLast?.or before = (lower c).getLast?.or last := by
          rw [List.getLast?_eq_some_getLast (lowering.ne_nil c)]
          rfl
        rw [snakeCharsBy_append_settled settled, nonempty, behind]
      rw [snakeCharsBy, List.append_assoc]
      split
      · exact (snakeCharsBy_separator lowering last _).trans
          (congrArg (separator :: ·) (kept none))
      · exact kept last

/-- A name that was brought into snake case stays as it is. -/
theorem snakeBy_snakeBy (name : String) :
    snakeBy lower (snakeBy lower name) = snakeBy lower name := by
  rw [← String.toList_inj, toList_snakeBy, toList_snakeBy, snakeCharsBy_snakeCharsBy lowering]

end Laws

/-- The laws of a conversion of names that addresses rest on. -/
structure IsNaming (convert : String → String) : Prop where
  /-- A converted name stays as it is. -/
  settled : ∀ name, convert (convert name) = convert name
  /-- A joined name is converted part by part. -/
  joined : ∀ parent child, parent ≠ "" →
    convert (join parent child) = join (convert parent) (convert child)

/-- Snake case obeys the laws of names under any lower case that they can rely on. -/
theorem IsLowering.isNaming_snakeBy (lowering : IsLowering lower) : IsNaming (snakeBy lower) :=
  ⟨snakeBy_snakeBy lowering, fun parent child _ => snakeBy_join lowering parent child⟩

end DeviceBlob.Name
