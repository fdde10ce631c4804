import DeviceBlob.Proofs.Json.Atoms

/-!
# JSON values are read back from their text

A value is written over several lines.  A step of the reader `Reads` the text of an item if it gives
the item again and leaves what stands behind it, wherever no number goes on.  If each item of a list
is read then so is the whole list (`itemsUntil_blockLines`), and by induction this passes from the
atoms to every value without floating-point numbers (`reads_prettyAt`).  Hence the text of such a
value stands for that value (`parse?_pretty`), also where the reader only looks at members with
given names (`parseKeeping?_pretty`).
-/

namespace DeviceBlob.Json

open Text

/-! ### Lists of items -/

/-- The character closes a list of items. -/
def IsClosing (c : Char) : Prop := c = ']' ∨ c = '\x7d'

/-- The character can be taken neither for a blank nor for the end of a list. -/
def StartsItem (c : Char) : Prop := ¬IsBlank c ∧ ¬IsClosing c

instance : DecidablePred IsClosing := fun c => inferInstanceAs (Decidable (c = ']' ∨ c = '\x7d'))

instance : DecidablePred StartsItem := fun c =>
  inferInstanceAs (Decidable (¬IsBlank c ∧ ¬IsClosing c))

/-- The step reads the text of an item and gives `x`, wherever no number goes on behind it. -/
structure Reads {α : Type} (step : Step α) (text : String) (x : α) : Prop where
  /-- The text can be told from a blank and from the end of a list. -/
  starts : ∃ c cs, text.toList = c :: cs ∧ StartsItem c
  /-- The text is read, and what stands behind it is left. -/
  read : ∀ rest, EndsNumber rest → step (text.toList ++ rest) = some (x, rest)

/-- The items behind the first one, each on a line of its own. -/
def furtherLines (depth : Nat) (texts : List String) : List Char :=
  texts.flatMap fun text => ',' :: ((newLine depth).toList ++ text.toList)

/-- Lines with commas between them, as a first one and further ones. -/
theorem toList_lines (depth : Nat) : ∀ (first : String) (others : List String),
    (String.intercalate ("," ++ newLine depth) (first :: others)).toList =
      first.toList ++ furtherLines depth others
  | first, [] => by simp [furtherLines]
  | first, next :: others => by
    have behind := toList_lines depth next others
    rw [String.toList_intercalate] at behind ⊢
    rw [List.map_cons] at behind
    rw [List.map_cons, List.map_cons, List.intercalate_cons_cons, behind]
    simp [furtherLines]

/-- The lines of a block behind its opening bracket. -/
def blockLines (closing : Char) (depth : Nat) : List String → List Char
  | [] => [closing]
  | first :: others =>
    (newLine (depth + 1)).toList ++ (first.toList ++
      (furtherLines (depth + 1) others ++ ((newLine depth).toList ++ [closing])))

/-- A block of lines between brackets, letter by letter. -/
theorem toList_block {opening closing : String} {c : Char} (single : closing.toList = [c])
    (depth : Nat) (texts : List String) :
    (block opening closing depth texts).toList = opening.toList ++ blockLines c depth texts := by
  cases texts with
  | nil => simp [block, blockLines, single]
  | cons first others =>
    simp only [block, blockLines, List.isEmpty_cons, Bool.false_eq_true, if_false,
      String.toList_append, toList_lines, single, List.append_assoc]

/-- Behind an item no number goes on: there is a comma or the end of the line. -/
theorem endsNumber_furtherLines (inner outer : Nat) (texts : List String) (cs : List Char) :
    EndsNumber (furtherLines inner texts ++ ((newLine outer).toList ++ cs)) := by
  intro c first
  have mark : c = '\n' ∨ c = ',' := by
    cases texts with
    | nil => simpa [furtherLines, newLine, eq_comm] using Or.inl first
    | cons text others => simpa [furtherLines, eq_comm] using Or.inr first
  rcases mark with rfl | rfl <;> decide

section Items

variable {α : Type} {item : Step α} {closing : Char}

/-- A closing bracket is not a blank. -/
theorem IsClosing.not_isBlank (closes : IsClosing closing) : ¬IsBlank closing := by
  rcases closes with rfl | rfl <;> decide

/-- A text that is read is also read behind blanks. -/
theorem Reads.read_behind_blanks {text : String} {x : α} (reads : Reads item text x)
    {rest : List Char} (ends : EndsNumber rest) :
    item (skipBlanks (text.toList ++ rest)) = some (x, rest) := by
  obtain ⟨c, cs, cons, starts⟩ := reads.starts
  have kept : skipBlanks (text.toList ++ rest) = text.toList ++ rest := by
    rw [cons, List.cons_append, skipBlanks_cons_of_not_isBlank starts.1]
  rw [kept, reads.read rest ends]

/-- Further items are read one by one, up to the closing bracket. -/
theorem moreItems_furtherLines (closes : IsClosing closing) {texts : List String} {xs : List α}
    (each : List.Forall₂ (Reads item) texts xs) (inner outer : Nat) (rest : List Char) :
    ∀ {count : Nat}, texts.length < count →
      moreItems item closing count
        (furtherLines inner texts ++ ((newLine outer).toList ++ closing :: rest)) =
          some (xs, rest) := by
  induction each with
  | nil =>
    rintro (_ | count) enough
    · exact absurd enough (Nat.not_lt_zero _)
    · have closed : skipBlanks (furtherLines inner [] ++
          ((newLine outer).toList ++ closing :: rest)) = closing :: rest := by
        rw [furtherLines, List.flatMap_nil, List.nil_append, skipBlanks_newLine,
          skipBlanks_cons_of_not_isBlank closes.not_isBlank]
      rw [moreItems, closed]
      rcases closes with rfl | rfl <;> rfl
  | @cons text x texts xs reads _ ih =>
    rintro (_ | count) enough
    · exact absurd enough (Nat.not_lt_zero _)
    · have behind := ih (Nat.lt_of_succ_lt_succ enough)
      have ends := endsNumber_furtherLines inner outer texts (closing :: rest)
      have comma : ¬IsBlank ',' := by decide
      have split : furtherLines inner (text :: texts) ++ ((newLine outer).toList ++ closing :: rest) =
          ',' :: ((newLine inner).toList ++ (text.toList ++ (furtherLines inner texts ++
            ((newLine outer).toList ++ closing :: rest)))) := by
        simp [furtherLines]
      rw [split, moreItems, skipBlanks_cons_of_not_isBlank comma]
      simp only [skipBlanks_newLine, reads.read_behind_blanks ends, behind, Option.bind_eq_bind,
        Option.bind_some, Option.pure_def]

/-- Items are read from a block of lines behind its opening bracket. -/
theorem itemsUntil_blockLines (closes : IsClosing closing) {texts : List String} {xs : List α}
    (each : List.Forall₂ (Reads item) texts xs) (depth : Nat) (rest : List Char) :
    itemsUntil item closing (blockLines closing depth texts ++ rest) = some (xs, rest) := by
  cases each with
  | nil =>
    have closed : skipBlanks (closing :: rest) = closing :: rest :=
      skipBlanks_cons_of_not_isBlank closes.not_isBlank rest
    simp [blockLines, itemsUntil, closed]
  | @cons text x texts xs reads others =>
    obtain ⟨c, cs, cons, starts⟩ := reads.starts
    have enough : texts.length < (furtherLines (depth + 1) texts ++
        ((newLine depth).toList ++ closing :: rest)).length := by
      have room : texts.length ≤ (furtherLines (depth + 1) texts).length :=
        length_le_length_flatMap (fun _ => List.cons_ne_nil _ _) texts
      simp only [List.length_append, List.length_cons]
      omega
    have behind := moreItems_furtherLines closes others (depth + 1) depth rest enough
    have ends := endsNumber_furtherLines (depth + 1) depth texts (closing :: rest)
    have notClosing : c ≠ closing := by
      rintro rfl
      exact starts.2 closes
    have lines : blockLines closing depth (text :: texts) ++ rest =
        (newLine (depth + 1)).toList ++ (c :: (cs ++ (furtherLines (depth + 1) texts ++
          ((newLine depth).toList ++ closing :: rest)))) := by
      simp [blockLines, cons]
    have first := reads.read _ ends
    rw [cons, List.cons_append] at first
    rw [lines, itemsUntil, skipBlanks_newLine, skipBlanks_cons_of_not_isBlank starts.1]
    simp only [if_neg notClosing, first, behind, Option.bind_eq_bind, Option.bind_some,
      Option.pure_def]

end Items

/-! ### Values -/

/-- A value without floating-point numbers, whose integers have 64 bits and in which containers are
nested at most `depth` deep. -/
inductive IsPlain : (depth : Nat) → Json → Prop where
  | null {depth : Nat} : IsPlain depth null
  | bool {depth : Nat} (value : Bool) : IsPlain depth (bool value)
  | integer {depth : Nat} {value : Int} (low : -9223372036854775808 ≤ value)
      (high : value < 18446744073709551616) : IsPlain depth (integer value)
  | string {depth : Nat} (value : String) : IsPlain depth (string value)
  | array {depth : Nat} {items : List Json} (each : ∀ item ∈ items, IsPlain depth item) :
    IsPlain (depth + 1) (array items)
  | object {depth : Nat} {members : List (String × Json)}
    (each : ∀ member ∈ members, IsPlain depth member.2) : IsPlain (depth + 1) (object members)

/-- The items of an array are printed one by one. -/
theorem prettyItems_eq_map (depth : Nat) (items : List Json) :
    prettyItems depth items = items.map (prettyAt depth) := by
  induction items with
  | nil => rfl
  | cons item rest ih => rw [prettyItems, ih, List.map_cons]

/-- The members of an object are printed one by one, behind their names. -/
theorem prettyMembers_eq_map (depth : Nat) (members : List (String × Json)) :
    prettyMembers depth members =
      members.map fun (name, value) => quote name ++ ": " ++ prettyAt depth value := by
  induction members with
  | nil => rfl
  | cons member rest ih => rw [prettyMembers, ih, List.map_cons]

/-- What opens no container is read as an atom. -/
theorem value_eq_atom {c : Char} (noArray : c ≠ '[') (noObject : c ≠ '\x7b') (skipping : Bool)
    (depth : Nat) (cs : List Char) :
    value skipping depth (c :: cs) = atom skipping (c :: cs) := by
  unfold value
  split
  · simp_all
  · simp_all
  · rfl

/-- A number starts with a digit or a minus and with no other character. -/
theorem ne_of_number {c d : Char} (number : c = '-' ∨ c.isDigit = true) (sign : d ≠ '-')
    (digit : d.isDigit = false) : c ≠ d := by
  rintro rfl
  rcases number with minus | isDigit
  · exact sign minus
  · rw [digit] at isDigit
    cases isDigit

/-- What starts like a number is read as one. -/
theorem atom_eq_literal {c : Char} (number : c = '-' ∨ c.isDigit = true) (cs : List Char) :
    atom false (c :: cs) = do
      let (number, rest) ← literal (c :: cs)
      return (← number.value?, rest) := by
  have other : 'n' ≠ c ∧ 't' ≠ c ∧ 'f' ≠ c :=
    ⟨(ne_of_number number (by decide) (by decide)).symm,
      (ne_of_number number (by decide) (by decide)).symm,
      (ne_of_number number (by decide) (by decide)).symm⟩
  unfold atom
  split
  · next same =>
    cases same
    exact absurd rfl (ne_of_number number (by decide) (by decide))
  · simp [afterFront?, other]

/-- An integer of 64 bits, with or without a sign, is read back. -/
theorem reads_integer {n : Int} (low : -9223372036854775808 ≤ n)
    (high : n < 18446744073709551616) (depth : Nat) :
    Reads (value false depth) (toString n) (integer n) := by
  have nonempty : (toString n).toList ≠ [] := by
    rw [toList_toString_int]
    split
    · exact (isNumeral_toDigits _).1
    · exact List.cons_ne_nil _ _
  obtain ⟨c, cs, cons⟩ := List.exists_cons_of_ne_nil nonempty
  have start : c = '-' ∨ c.isDigit = true := eq_minus_or_isDigit (cons ▸ List.mem_cons_self)
  have differs : ∀ d : Char, d ≠ '-' → d.isDigit = false → c ≠ d :=
    fun d => ne_of_number start
  have starts : StartsItem c := by
    refine ⟨?_, ?_⟩
    · rintro (same | same | same | same)
      all_goals exact differs _ (by decide) (by decide) same
    · rintro (same | same)
      all_goals exact differs _ (by decide) (by decide) same
  refine ⟨⟨c, cs, cons, starts⟩, fun rest ends => ?_⟩
  have parts := literal_toString n ends
  rw [cons, List.cons_append] at parts ⊢
  rw [value_eq_atom (differs _ (by decide) (by decide)) (differs _ (by decide) (by decide)),
    atom_eq_literal start, parts]
  simp [value?_wholeLiteral low high]

/-- A string is read back. -/
theorem reads_string (s : String) (depth : Nat) :
    Reads (value false depth) (quote s) (string s) := by
  refine ⟨⟨'"', _, by simpa using toList_quote_append s [], by decide⟩, fun rest _ => ?_⟩
  rw [toList_quote_append, value_eq_atom (by decide) (by decide), atom, stringText_escapes]
  rfl

/-- Null is read back. -/
theorem reads_null (depth : Nat) : Reads (value false depth) "null" null := by
  refine ⟨⟨'n', _, rfl, by decide⟩, fun rest _ => ?_⟩
  simp [value_eq_atom, atom, afterFront?]

/-- A truth value is read back. -/
theorem reads_bool (b : Bool) (depth : Nat) :
    Reads (value false depth) (if b then "true" else "false") (bool b) := by
  cases b
  · refine ⟨⟨'f', _, rfl, by decide⟩, fun rest _ => ?_⟩
    simp [value_eq_atom, atom, afterFront?]
  · refine ⟨⟨'t', _, rfl, by decide⟩, fun rest _ => ?_⟩
    simp [value_eq_atom, atom, afterFront?]

/-- A member is read if its value is. -/
theorem Reads.member {α : Type} {step : String → Step α} {name text : String} {x : α}
    (reads : Reads (step name) text x) :
    Reads (member false step) (quote name ++ ": " ++ text) (name, x) := by
  have split : ∀ rest, (quote name ++ ": " ++ text).toList ++ rest =
      '"' :: (name.toList.flatMap escape ++ '"' :: (':' :: ' ' :: (text.toList ++ rest))) := by
    simp [quote]
  refine ⟨⟨'"', _, by simpa using split [], by decide⟩, fun rest ends => ?_⟩
  have colon : ¬IsBlank ':' := by decide
  have blank : skipBlanks (' ' :: (text.toList ++ rest)) = skipBlanks (text.toList ++ rest) := rfl
  rw [split, Json.member, stringText_escapes]
  simp only [Option.bind_eq_bind, Option.bind_some, skipBlanks_cons_of_not_isBlank colon, blank,
    reads.read_behind_blanks ends, Option.pure_def]

/-- An array is printed as a block of its items. -/
theorem toList_prettyAt_array (level : Nat) (items : List Json) :
    (prettyAt level (array items)).toList =
      '[' :: blockLines ']' level (prettyItems (level + 1) items) :=
  toList_block rfl level _

/-- An object is printed as a block of its members. -/
theorem toList_prettyAt_object (level : Nat) (members : List (String × Json)) :
    (prettyAt level (object members)).toList =
      '\x7b' :: blockLines '\x7d' level (prettyMembers (level + 1) members) :=
  toList_block rfl level _

/-- A plain value is read back from its text over several lines. -/
theorem reads_prettyAt {depth : Nat} {json : Json} (plain : IsPlain depth json) :
    ∀ level : Nat, Reads (value false depth) (prettyAt level json) json := by
  induction plain with
  | null =>
    intro level
    exact reads_null _
  | bool b =>
    intro level
    exact reads_bool b _
  | integer low high =>
    intro level
    exact reads_integer low high _
  | string s =>
    intro level
    exact reads_string s _
  | @array depth items _ each =>
    intro level
    have items_read : List.Forall₂ (Reads (value false depth)) (prettyItems (level + 1) items)
        items := by
      rw [prettyItems_eq_map, List.forall₂_map_left_iff, List.forall₂_same]
      exact fun item mem => each item mem (level + 1)
    have text := toList_prettyAt_array level items
    refine ⟨⟨'[', _, text, by decide⟩, fun rest _ => ?_⟩
    rw [text, List.cons_append, value, itemsUntil_blockLines (Or.inl rfl) items_read]
    rfl
  | @object depth members _ each =>
    intro level
    have members_read : List.Forall₂ (Reads (member false fun _ => value false depth))
        (prettyMembers (level + 1) members) members := by
      rw [prettyMembers_eq_map, List.forall₂_map_left_iff, List.forall₂_same]
      exact fun member mem => (each member mem (level + 1)).member
    have text := toList_prettyAt_object level members
    refine ⟨⟨'\x7b', _, text, by decide⟩, fun rest _ => ?_⟩
    rw [text, List.cons_append, value, itemsUntil_blockLines (Or.inr rfl) members_read]
    rfl

/-! ### Whole texts -/

/-- What a step reads from a text over several lines is all that the text stands for. -/
theorem whole?_of_reads {α : Type} {step : Step α} {text : String} {x : α}
    (reads : Reads step text x) : whole? step text = some x := by
  have ends : EndsNumber [] := fun c none => by cases none
  have whole := reads.read_behind_blanks ends
  rw [List.append_nil] at whole
  rw [whole?, whole]
  rfl

/-- A plain value is what its text over several lines stands for. -/
theorem parse?_pretty {json : Json} (plain : IsPlain depthLimit json) :
    parse? json.pretty = some json :=
  whole?_of_reads (reads_prettyAt plain 0)

/-- A member whose name is kept is read with its value. -/
theorem Reads.keptValue {names : List String} {name text : String} {json : Json}
    (kept : name ∈ names) (reads : Reads (value false (depthLimit - 1)) text json) :
    Reads (keptValue names name) text (some json) := by
  refine ⟨reads.starts, fun rest ends => ?_⟩
  have listed : names.contains name = true := List.contains_iff_mem.2 kept
  rw [Json.keptValue, if_pos listed, reads.read rest ends]
  rfl

/-- All members that were kept are there. -/
theorem filterMap_kept (members : List (String × Json)) :
    ((members.map fun (name, json) => (name, some json)).filterMap
      fun (name, json) => json.map (name, ·)) = members := by
  rw [List.filterMap_map]
  exact List.filterMap_some

/-- A document whose members are all of interest is what its text stands for. -/
theorem parseKeeping?_pretty {names : List String} {members : List (String × Json)}
    (kept : ∀ member ∈ members, member.1 ∈ names)
    (plain : ∀ member ∈ members, IsPlain (depthLimit - 1) member.2) :
    parseKeeping? names (object members).pretty = some (object members) := by
  have members_read : List.Forall₂ (Reads (member false (Json.keptValue names)))
      (prettyMembers 1 members) (members.map fun (name, json) => (name, some json)) := by
    rw [prettyMembers_eq_map, List.forall₂_map_left_iff, List.forall₂_map_right_iff,
      List.forall₂_same]
    exact fun member mem => ((reads_prettyAt (plain member mem) 1).keptValue (kept member mem)).member
  have text := toList_prettyAt_object 0 members
  have document : Reads (valueKeeping names) (object members).pretty (object members) := by
    refine ⟨⟨'\x7b', _, text, by decide⟩, fun rest _ => ?_⟩
    rw [pretty, text, List.cons_append, valueKeeping,
      itemsUntil_blockLines (Or.inr rfl) members_read]
    simp only [Option.map_some, filterMap_kept]
  exact whole?_of_reads document

end DeviceBlob.Json
