import DeviceBlob.Proofs.Params
import DeviceBlob.Proofs.Text.Decimal
import DeviceBlob.Proofs.Text.Pieces

/-!
# Parameters are read back from their text

Parameters are written as `name=value` with commas between them.  Names that contain neither of the
two marks and no blanks at their ends (`IsWritable`) come back as they were, with their values.
Reading never makes other names (`isWritable_of_ofText`), so these are exactly the parameters that
their text gives back (`ofText_toText_iff`).
-/

namespace DeviceBlob.Params

variable {params : Params} {name : String} {value : Int64}

/-- A name that is found again in the text of parameters: no mark stands in it, and no blank at
either of its ends. -/
structure IsWritable (name : String) : Prop where
  /-- The name has no mark between parameters in it. -/
  noComma : ',' ∉ name.toList
  /-- The name has no mark between a name and its value in it. -/
  noEquals : '=' ∉ name.toList
  /-- The name has no blanks at its ends. -/
  trimmed : Text.IsTrimmed name.toList

/-! ### Writing -/

/-- The text of one parameter. -/
def pieceOf (entry : String × Int64) : List Char :=
  entry.1.toList ++ '=' :: (toString entry.2.toInt).toList

/-- The text is made of one piece for each parameter, with commas between them. -/
theorem toList_toText (params : Params) :
    params.toText.toList = [','].intercalate (params.toList.map pieceOf) := by
  rw [toText, String.toList_intercalate, List.map_map]
  congr 2
  funext entry
  simp [pieceOf]

/-- No piece has a comma in it. -/
theorem comma_not_mem_pieceOf (writable : IsWritable name) : ',' ∉ pieceOf (name, value) := by
  have number : ',' ∉ (toString value.toInt).toList :=
    Text.not_mem_toString (by decide) (by decide) value.toInt
  simp only [pieceOf, List.mem_append, List.mem_cons, not_or]
  exact ⟨writable.noComma, by decide, number⟩

/-- No blank stands at the ends of the text of a parameter. -/
theorem isTrimmed_pieceOf (writable : IsWritable name) :
    Text.IsTrimmed (pieceOf (name, value)) := by
  constructor
  · intro c first
    rw [pieceOf, List.head?_append, Option.mem_def, Option.or_eq_some_iff] at first
    rcases first with first | ⟨-, first⟩
    · exact writable.trimmed.1 c first
    · cases first
      decide
  · intro c last
    rw [pieceOf, List.getLast?_append, List.getLast?_cons, Option.some_or, Option.mem_def] at last
    cases digits : (toString value.toInt).toList.getLast? with
    | none =>
      rw [digits] at last
      cases last
      decide
    | some d =>
      rw [digits] at last
      cases last
      exact Text.isBlank_toString_int (List.mem_of_getLast? digits)

/-- The pieces of the text of parameters, with the blanks cut off and without empty ones, are the
texts of the single parameters. -/
theorem pieces_toText (writable : ∀ entry ∈ params.toList, IsWritable entry.1) :
    ((Text.pieces ',' params.toText.toList).map Text.trimChars).filter (!·.isEmpty) =
      params.toList.map pieceOf := by
  rw [toList_toText]
  by_cases none : params.toList = []
  · rw [none]
    rfl
  have free : ∀ piece ∈ params.toList.map pieceOf, ',' ∉ piece := by
    simp only [List.forall_mem_map]
    exact fun entry mem => comma_not_mem_pieceOf (writable entry mem)
  have trimmed : (params.toList.map pieceOf).map Text.trimChars = params.toList.map pieceOf := by
    rw [List.map_map]
    refine List.map_congr_left fun entry mem => ?_
    exact (isTrimmed_pieceOf (writable entry mem)).trimChars_eq
  rw [Text.pieces_intercalate (by simpa using none) free, trimmed, List.filter_eq_self,
    List.forall_mem_map]
  intro entry _
  simp [pieceOf]

/-! ### Reading -/

/-- A parameter is read back from its text. -/
theorem ofPiece_pieceOf (writable : IsWritable name) (value : Int64) :
    ofPiece (pieceOf (name, value)) = .ok (name, value) := by
  have number : Text.trimChars (toString value.toInt).toList = (toString value.toInt).toList := by
    refine Text.trimChars_eq_self ?_ ?_
    · exact fun c first => Text.isBlank_toString_int (List.mem_of_mem_head? first)
    · exact fun c last => Text.isBlank_toString_int (List.mem_of_getLast? last)
  have cut : Text.cutFirst '=' (pieceOf (name, value)) =
      some (name.toList, (toString value.toInt).toList) :=
    Text.cutFirst_append_cons writable.noEquals _
  simp only [ofPiece, cut, Text.trim, number, String.ofList_toList,
    Text.int64?_toString, writable.trimmed.trimChars_eq]

/-- What is read as a parameter is named in front of the first `=` of its piece. -/
theorem ofPiece_eq_ok {piece : List Char} (read : ofPiece piece = .ok (name, value)) :
    ∃ before after, piece = before ++ '=' :: after ∧ '=' ∉ before ∧
      name.toList = Text.trimChars before := by
  unfold ofPiece at read
  split at read
  · cases read
  · next before after cut =>
    obtain ⟨split, free⟩ := Text.cutFirst_eq_some_iff.1 cut
    split at read
    · cases read
    · cases read
      exact ⟨before, after, split, free, by simp [Text.trim]⟩

/-- Reading only makes names that can be written. -/
theorem isWritable_of_ofText {text : String} (read : ofText text = .ok params) :
    ∀ entry ∈ params.toList, IsWritable entry.1 := by
  rintro ⟨name, value⟩ mem
  simp only [ofText, bind_eq_ok, pure_eq_ok] at read
  obtain ⟨entries, each, rfl⟩ := read
  have listed : (name, value) ∈ entries :=
    SortedMap.mem_of_get?_ofList (SortedMap.get?_eq_some_iff.2 mem)
  obtain ⟨piece, among, here⟩ := exists_of_mem_results each listed
  obtain ⟨cs, cut, rfl⟩ := List.mem_map.1 (List.mem_of_mem_filter among)
  obtain ⟨before, after, split, free, named⟩ := ofPiece_eq_ok here
  have inside : ∀ c ∈ name.toList, c ∈ before := by
    intro c mem
    rw [named] at mem
    exact Text.mem_of_mem_trimChars mem
  refine ⟨fun comma => ?_, fun equals => free (inside _ equals), ?_⟩
  · have within : ',' ∈ Text.trimChars cs := split ▸ List.mem_append_left _ (inside _ comma)
    exact Text.not_mem_of_mem_pieces cut (Text.mem_of_mem_trimChars within)
  · rw [named]
    exact Text.isTrimmed_trimChars before

/-- Parameters are read back from their text exactly if each name is without marks and without
blanks at its ends, whatever the values are and however many parameters there are. -/
theorem ofText_toText_iff (params : Params) :
    ofText params.toText = .ok params ↔ ∀ entry ∈ params.toList, IsWritable entry.1 := by
  constructor
  · exact isWritable_of_ofText
  · intro writable
    have each : (params.toList.map pieceOf).mapM ofPiece = .ok params.toList := by
      rw [mapM_eq_ok, List.forall₂_map_left_iff, List.forall₂_same]
      exact fun entry mem => ofPiece_pieceOf (writable entry mem) entry.2
    have filled : ofList params.toList = params :=
      Params.ext (SortedMap.ofList_entries params.values)
    rw [ofText, pieces_toText writable, each, ok_bind, filled]
    rfl

end DeviceBlob.Params
