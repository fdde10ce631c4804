import DeviceBlob.Text.Letter
import Mathlib.Data.List.Chain

/-!
# Lower case is settled

What has been brought into lower case stays as it is when that is done again, and there is no
upper-case letter in it but one that has no lower case (`lower_of_mem_lower`).  Outside of ASCII
this is read off the tables: a run of letters is moved out of a table if no other run of it comes
between (`avoids`), which is tried for the runs as a whole and not for each of their letters.
-/

namespace DeviceBlob.Text.Letter

/-! ### Runs that are moved -/

/-- No run of a sorted table covers a code point from `low` to `high`.  Of alternating code points
only those count that are an even number away from `low`. -/
def avoids (low high : Nat) (alternating : Bool) : List CaseRun → Bool
  | [] => true
  | run :: rest =>
    Nat.blt high run.first ||
      (Nat.blt run.last low || alternating && run.step == 2 && (low + run.first) % 2 == 1) &&
        avoids low high alternating rest

/-- No code point of the run is moved to one that the table covers. -/
def CaseRun.movesOutOf (table : List CaseRun) (run : CaseRun) : Bool :=
  avoids (run.first + run.shift).toNat (run.last + run.shift).toNat
    (run.step == 2 || run.first == run.last) table

/-- The code points of the run are moved to characters. -/
def CaseRun.staysValid (run : CaseRun) : Bool :=
  0 ≤ run.first + run.shift && (run.last + run.shift < 0xD800 ||
    0xDFFF < run.first + run.shift && run.last + run.shift < 0x110000)

/-- A run covers a letter in its range, or each second one of them. -/
theorem CaseRun.covers_iff {run : CaseRun} {code : Nat} :
    run.covers code = true ↔
      run.first ≤ code ∧ code ≤ run.last ∧ (code - run.first) % run.step = 0 := by
  simp [covers, and_assoc]

/-- The table lists its runs from the lowest to the highest. -/
def Sorted (table : List CaseRun) : Prop := table.Pairwise fun a b => a.first ≤ b.first

/-- Runs that avoid a range cover none of its letters. -/
theorem covers_of_avoids {low high code : Nat} {alternating : Bool} (above : low ≤ code)
    (below : code ≤ high) (even : alternating = true → (code - low) % 2 = 0) :
    ∀ {table : List CaseRun}, Sorted table → avoids low high alternating table = true →
      ∀ run ∈ table, run.covers code = false
  | [], _, _, run, mem => absurd mem List.not_mem_nil
  | first :: rest, sorted, h, run, mem => by
    obtain ⟨least, sortedRest⟩ := List.pairwise_cons.1 sorted
    rw [Bool.eq_false_iff]
    intro covered
    obtain ⟨begins, ends, steps⟩ := CaseRun.covers_iff.1 covered
    simp only [avoids, Bool.or_eq_true, Bool.and_eq_true, Nat.blt_eq, beq_iff_eq] at h
    rcases h with before | ⟨here, others⟩
    · rcases List.mem_cons.1 mem with rfl | mem
      · omega
      · have := least run mem
        omega
    · rcases List.mem_cons.1 mem with rfl | mem
      · rcases here with after | ⟨⟨every, two⟩, odd⟩
        · omega
        · have := even every
          rw [two] at steps
          omega
      · have := covers_of_avoids above below even sortedRest others run mem
        rw [covered] at this
        cases this

/-- A code point of a run that is moved out of a table is not covered by it any more. -/
theorem CaseRun.covers_of_movesOutOf {run : CaseRun} {table : List CaseRun} {code : Nat}
    (sorted : Sorted table) (valid : 0 ≤ run.first + run.shift) (h : run.movesOutOf table = true)
    (covered : run.covers code = true) :
    ∀ other ∈ table, other.covers (code + run.shift).toNat = false := by
  obtain ⟨begins, ends, steps⟩ := covers_iff.1 covered
  refine covers_of_avoids (by omega) (by omega) ?_ sorted h
  intro alternating
  simp only [Bool.or_eq_true, beq_iff_eq] at alternating
  rcases alternating with two | single
  · rw [two] at steps
    omega
  · omega

/-! ### The tables -/

/-- A table is sorted if each run starts behind the one before it. -/
theorem sorted_of_isChain {table : List CaseRun}
    (chain : table.IsChain fun a b => a.first ≤ b.first) : Sorted table := by
  have : IsTrans CaseRun fun a b => a.first ≤ b.first := ⟨fun _ _ _ => Nat.le_trans⟩
  exact List.isChain_iff_pairwise.1 chain

/-- The table of upper-case letters is sorted. -/
theorem sorted_upperCaseRuns : Sorted upperCaseRuns := sorted_of_isChain (by decide +kernel)

/-- The table of lower-case forms is sorted. -/
theorem sorted_toLowerRuns : Sorted toLowerRuns := sorted_of_isChain (by decide +kernel)

/-- The letters that a run leads to are letters. -/
theorem stays_of_mem {run : CaseRun} (mem : run ∈ toLowerRuns) :
    0 ≤ run.first + run.shift ∧ (run.last + run.shift < 0xD800 ∨
      0xDFFF < run.first + run.shift ∧ run.last + run.shift < 0x110000) := by
  have all : toLowerRuns.all CaseRun.staysValid = true := by decide +kernel
  simpa [CaseRun.staysValid] using List.all_eq_true.1 all run mem

/-- No letter is moved to an upper-case letter. -/
theorem movesOutOf_upperCaseRuns : toLowerRuns.all (CaseRun.movesOutOf upperCaseRuns) = true := by
  decide +kernel

/-- No letter is moved to one that is moved itself. -/
theorem movesOutOf_toLowerRuns : toLowerRuns.all (CaseRun.movesOutOf toLowerRuns) = true := by
  decide +kernel

/-- Every upper-case letter is in the table of them, those of ASCII, too. -/
theorem covers_of_isUpper {c : Char} (upper : isUpper c = true) :
    ∃ run ∈ upperCaseRuns, run.covers c.toNat = true := by
  unfold isUpper at upper
  split at upper
  · refine ⟨⟨0x0041, 0x005A, 1, 0⟩, List.mem_cons_self, CaseRun.covers_iff.2 ?_⟩
    simp only [Bool.and_eq_true, decide_eq_true_eq, Char.le_def, UInt32.le_iff_toNat_le] at upper
    exact ⟨upper.1, upper.2, Nat.mod_one _⟩
  · exact List.any_eq_true.1 upper

/-! ### One character -/

/-- Outside of ASCII a character is moved by the table. -/
theorem lower_of_not_ascii {c : Char} (ascii : ¬c.toNat < 0x80) (plain : c ≠ 'İ') :
    lower c = [shifted toLowerRuns c] := by
  unfold lower
  rw [if_neg ascii, if_neg plain]

/-- Each letter has a lower-case form. -/
theorem lower_ne_nil (c : Char) : lower c ≠ [] := by
  unfold lower
  split
  · exact List.cons_ne_nil _ _
  · split <;> exact List.cons_ne_nil _ _

/-- A character that is in neither table is its own lower case. -/
theorem lower_of_not_covered {d : Char} (notUpper : isUpper d = false)
    (notMoved : ∀ run ∈ toLowerRuns, run.covers d.toNat = false) : lower d = [d] := by
  by_cases ascii : d.toNat < 0x80
  · have settled : ∀ code < 0x80, isUpper (Char.ofNat code) = false →
        lower (Char.ofNat code) = [Char.ofNat code] := by decide
    have here := settled d.toNat ascii
    rw [Char.ofNat_toNat] at here
    exact here notUpper
  · have dotted : d ≠ 'İ' := by
      rintro rfl
      exact absurd notUpper (by decide +kernel)
    have absent : toLowerRuns.find? (·.covers d.toNat) = none := by
      rw [List.find?_eq_none]
      intro run mem covered
      rw [notMoved run mem] at covered
      cases covered
    rw [lower_of_not_ascii ascii dotted, shifted, absent]

/-- A character that was moved is in neither table. -/
theorem lower_shifted {c : Char} {run : CaseRun}
    (found : toLowerRuns.find? (·.covers c.toNat) = some run) :
    lower (shifted toLowerRuns c) = [shifted toLowerRuns c] ∧
      isUpper (shifted toLowerRuns c) = false := by
  have mem := List.mem_of_find?_eq_some found
  have covered := List.find?_some found
  obtain ⟨nonneg, range⟩ := stays_of_mem mem
  have moved : (shifted toLowerRuns c).toNat = (c.toNat + run.shift).toNat := by
    obtain ⟨begins, ends, -⟩ := CaseRun.covers_iff.1 covered
    have scalar : (c.toNat + run.shift).toNat.isValidChar := by
      unfold Nat.isValidChar
      omega
    rw [shifted, found]
    show (Char.ofNat (c.toNat + run.shift).toNat).toNat = _
    rw [Char.ofNat, dif_pos scalar]
    rfl
  have uppers := CaseRun.covers_of_movesOutOf sorted_upperCaseRuns nonneg
    (List.all_eq_true.1 movesOutOf_upperCaseRuns run mem) covered
  have lowers := CaseRun.covers_of_movesOutOf sorted_toLowerRuns nonneg
    (List.all_eq_true.1 movesOutOf_toLowerRuns run mem) covered
  rw [← moved] at uppers lowers
  have notUpper : isUpper (shifted toLowerRuns c) = false := by
    rw [Bool.eq_false_iff]
    intro upper
    obtain ⟨other, held, again⟩ := covers_of_isUpper upper
    rw [uppers other held] at again
    cases again
  exact ⟨lower_of_not_covered notUpper lowers, notUpper⟩

/-- The character is its own lower case and no upper-case letter. -/
def isSettled (c : Char) : Bool := lower c == [c] && !isUpper c

/-- A letter is settled if it is its own lower-case form and not in upper case. -/
theorem isSettled_iff {c : Char} : isSettled c = true ↔ lower c = [c] ∧ isUpper c = false := by
  simp [isSettled]

/-- What a character becomes in lower case stays as it is.  It is no upper-case letter, unless it is
the character itself. -/
theorem lower_of_mem_lower {c d : Char} (mem : d ∈ lower c) :
    lower d = [d] ∧ (isUpper d = true → d = c) := by
  have settled : (lower d = [d] ∧ isUpper d = false) ∨ d = c ∧ lower c = [c] := by
    by_cases ascii : c.toNat < 0x80
    · have all : ∀ code < 0x80, (lower (Char.ofNat code)).all isSettled = true := by decide
      have here := all c.toNat ascii
      rw [Char.ofNat_toNat] at here
      exact Or.inl (isSettled_iff.1 (List.all_eq_true.1 here d mem))
    by_cases dotted : c = 'İ'
    · have two : (lower 'İ').all isSettled = true := by decide
      exact Or.inl (isSettled_iff.1 (List.all_eq_true.1 two d (dotted ▸ mem)))
    have only := lower_of_not_ascii ascii dotted
    rw [only, List.mem_singleton] at mem
    cases found : toLowerRuns.find? (·.covers c.toNat) with
    | none =>
      have same : shifted toLowerRuns c = c := by rw [shifted, found]
      rw [same] at mem only
      exact Or.inr ⟨mem, only⟩
    | some run =>
      rw [mem]
      exact Or.inl (lower_shifted found)
  rcases settled with ⟨fixed, notUpper⟩ | ⟨same, fixed⟩
  · rw [notUpper]
    exact ⟨fixed, fun upper => by cases upper⟩
  · rw [same]
    exact ⟨fixed, fun _ => rfl⟩

end DeviceBlob.Text.Letter
