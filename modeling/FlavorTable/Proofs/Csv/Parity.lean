import FlavorTable.Proofs.Csv.Separators

/-!
# Reading a line by the parity of its quotes

The reader of a line goes through it once and keeps one bit of state.  Here the
same fields are described position by position, without a state: all that
matters for a character is the number of double quotes before it and the
character right before it.

A comma cuts the line when an even number of quotes stand before it.  A quote is
kept when it follows another quote and an even number stand before it, that is,
when it is the second half of a pair inside quotes; other quotes are dropped and
all other characters are kept.  A line with an odd number of quotes has no fields.

The reader's bit is the parity of the quotes that it went past.  It takes a pair
inside quotes in one step, so outside of quotes it never stands between two
quotes, and this is what makes the description local.

## Main results

* `Stands` — the state of the reader at a position, with a rule for each of its steps.
* `eq_fieldsAfter_of_scan` — what the reader finds behind a text.
* `scan_eq_none_iff` — when it finds nothing.
* `split_by_parity` — the fields of a line, and when it has none.
-/

namespace FlavorTable.Csv

open FlavorTable.Text

/-! ## Positions of a line -/

/-- The number of double quotes before a position. -/
def quotesBefore (chars : List Char) (i : Nat) : Nat := (chars.take i).count '"'

/-- The line is cut at this position: at a comma with an even number of quotes before it. -/
def CutAt (chars : List Char) (i : Nat) : Prop :=
  chars[i]? = some ',' ∧ quotesBefore chars i % 2 = 0

/-- The character at this position belongs to its field.  A quote does so only after another
one, with an even number of quotes before it. -/
def KeptAt (chars : List Char) (i : Nat) : Prop :=
  chars[i]? = some '"' → quotesBefore chars i % 2 = 0 ∧ 0 < i ∧ chars[i - 1]? = some '"'

instance (chars : List Char) (i : Nat) : Decidable (CutAt chars i) :=
  inferInstanceAs (Decidable (_ ∧ _))

instance (chars : List Char) (i : Nat) : Decidable (KeptAt chars i) :=
  inferInstanceAs (Decidable (_ → _))

/-- The number of positions at which a line is cut. -/
def cuts (chars : List Char) : Nat := (List.range chars.length).countP fun i => CutAt chars i

/-- The characters of a line that are kept at some positions. -/
def keptOf (chars : List Char) (positions : List Nat) : List Char :=
  (positions.filter fun i => KeptAt chars i).filterMap fun i => chars[i]?

/-- The fields of a line at some positions: what is kept between the cuts. -/
def fieldsAt (chars : List Char) (positions : List Nat) : List (List Char) :=
  (positions.splitOnP fun i => CutAt chars i).map (keptOf chars)

/-- The fields of a line by the parity of its quotes. -/
def fieldsByParity (chars : List Char) : List (List Char) :=
  fieldsAt chars (List.range chars.length)

section Position

variable (before : List Char) (c : Char) (rest : List Char)

theorem getElem?_at : (before ++ c :: rest)[before.length]? = some c := by
  simp

theorem quotesBefore_at :
    quotesBefore (before ++ c :: rest) before.length = before.count '"' := by
  rw [quotesBefore, List.take_left]

theorem cutAt_iff :
    CutAt (before ++ c :: rest) before.length ↔ c = ',' ∧ before.count '"' % 2 = 0 := by
  rw [CutAt, getElem?_at, quotesBefore_at, Option.some.injEq]

/-- The character before a position is the last one of the text before it. -/
theorem quote_before_iff :
    0 < before.length ∧ (before ++ c :: rest)[before.length - 1]? = some '"' ↔
      before.getLast? = some '"' := by
  rcases List.eq_nil_or_concat before with rfl | ⟨init, last, rfl⟩
  · simp
  · simp

theorem keptAt_iff :
    KeptAt (before ++ c :: rest) before.length ↔
      (c = '"' → before.count '"' % 2 = 0 ∧ before.getLast? = some '"') := by
  rw [KeptAt, getElem?_at, quotesBefore_at, Option.some.injEq, quote_before_iff]

end Position

/-! ## Fields from a position on -/

section Fields

variable {chars : List Char} {i : Nat} {c : Char} (rest : List Nat)

theorem fieldsAt_ne_nil (chars : List Char) (positions : List Nat) :
    fieldsAt chars positions ≠ [] := by
  simp [fieldsAt, List.splitOnP_ne_nil]

/-- A cut closes a field that the rest does not add to. -/
theorem fieldsAt_of_cut (h : CutAt chars i) :
    fieldsAt chars (i :: rest) = [] :: fieldsAt chars rest := by
  rw [fieldsAt, List.splitOnP_cons_eq_if_modifyHead, if_pos (decide_eq_true h)]
  rfl

theorem fieldsAt_of_not_cut (h : ¬CutAt chars i) :
    fieldsAt chars (i :: rest) = (fieldsAt chars rest).modifyHead (keptOf chars [i] ++ ·) := by
  rw [fieldsAt, fieldsAt, List.splitOnP_cons_eq_if_modifyHead, if_neg (by simpa using h)]
  cases hPieces : rest.splitOnP fun i => CutAt chars i with
  | nil => exact absurd hPieces (List.splitOnP_ne_nil _ _)
  | cons piece pieces =>
      simp only [List.modifyHead_cons, List.map_cons, List.cons.injEq, and_true]
      rw [← List.singleton_append, keptOf, List.filter_append, List.filterMap_append]
      rfl

/-- A character that is kept stands in front of the first field of the rest. -/
theorem fieldsAt_of_kept (hCut : ¬CutAt chars i) (hKept : KeptAt chars i)
    (hc : chars[i]? = some c) :
    fieldsAt chars (i :: rest) = extendFirst c (fieldsAt chars rest) := by
  have hFound : keptOf chars [i] = [c] := by simp [keptOf, hKept, hc]
  obtain ⟨first, others, hFields⟩ := List.exists_cons_of_ne_nil (fieldsAt_ne_nil chars rest)
  rw [fieldsAt_of_not_cut rest hCut, hFound, hFields]
  rfl

theorem fieldsAt_of_dropped (hCut : ¬CutAt chars i) (hDropped : ¬KeptAt chars i) :
    fieldsAt chars (i :: rest) = fieldsAt chars rest := by
  have hFound : keptOf chars [i] = [] := by simp [keptOf, hDropped]
  rw [fieldsAt_of_not_cut rest hCut, hFound]
  exact congrFun List.modifyHead_id _

theorem length_fieldsAt (chars : List Char) (positions : List Nat) :
    (fieldsAt chars positions).length = positions.countP (fun i => CutAt chars i) + 1 := by
  induction positions with
  | nil => rfl
  | cons i rest ih =>
      by_cases hCut : CutAt chars i
      · rw [fieldsAt_of_cut rest hCut, List.length_cons, ih]
        simp [hCut]
      · rw [fieldsAt_of_not_cut rest hCut, List.length_modifyHead, ih]
        simp [hCut]

end Fields

/-! ## Fields behind a text -/

/-- The fields of the rest of a line, as the text before it determines them. -/
def fieldsAfter (before rest : List Char) : List (List Char) :=
  fieldsAt (before ++ rest) (List.range' before.length rest.length)

section After

variable {before : List Char} {c : Char} (rest : List Char)

theorem fieldsAfter_nil (before : List Char) : fieldsAfter before [] = [[]] := rfl

/-- The position of the first character comes before those of the others. -/
theorem fieldsAfter_cons (before : List Char) (c : Char) :
    fieldsAfter before (c :: rest) =
      fieldsAt (before ++ c :: rest)
        (before.length :: List.range' (before.length + 1) rest.length) := by
  rw [fieldsAfter, List.length_cons, List.range'_succ]

theorem fieldsAfter_append (before : List Char) (c : Char) :
    fieldsAfter (before ++ [c]) rest =
      fieldsAt (before ++ c :: rest) (List.range' (before.length + 1) rest.length) := by
  rw [fieldsAfter, List.append_assoc, List.length_append]
  rfl

theorem fieldsAfter_comma (hEven : before.count '"' % 2 = 0) :
    fieldsAfter before (',' :: rest) = [] :: fieldsAfter (before ++ [',']) rest := by
  have hCut : CutAt (before ++ ',' :: rest) before.length :=
    (cutAt_iff before ',' rest).mpr ⟨rfl, hEven⟩
  rw [fieldsAfter_cons, fieldsAfter_append, fieldsAt_of_cut _ hCut]

theorem fieldsAfter_kept (hComma : c = ',' → before.count '"' % 2 = 1)
    (hQuote : c = '"' → before.count '"' % 2 = 0 ∧ before.getLast? = some '"') :
    fieldsAfter before (c :: rest) = extendFirst c (fieldsAfter (before ++ [c]) rest) := by
  have hCut : ¬CutAt (before ++ c :: rest) before.length := by
    rw [cutAt_iff]
    intro hBoth
    have hOdd := hComma hBoth.1
    omega
  have hKept : KeptAt (before ++ c :: rest) before.length := (keptAt_iff before c rest).mpr hQuote
  rw [fieldsAfter_cons, fieldsAfter_append, fieldsAt_of_kept _ hCut hKept (getElem?_at _ _ _)]

theorem fieldsAfter_dropped
    (h : before.count '"' % 2 = 0 → before.getLast? ≠ some '"') :
    fieldsAfter before ('"' :: rest) = fieldsAfter (before ++ ['"']) rest := by
  have hCut : ¬CutAt (before ++ '"' :: rest) before.length := by
    rw [cutAt_iff]
    rintro ⟨hComma, -⟩
    cases hComma
  have hDropped : ¬KeptAt (before ++ '"' :: rest) before.length := by
    rw [keptAt_iff]
    intro hBoth
    obtain ⟨hEven, hLast⟩ := hBoth rfl
    exact h hEven hLast
  rw [fieldsAfter_cons, fieldsAfter_append, fieldsAt_of_dropped _ hCut hDropped]

end After

/-! ## Where the reader ends -/

/-- The reader is inside quotes when an odd number of them were read. -/
theorem toNat_insideAfter (inside : Bool) (s : List Char) :
    (insideAfter inside s).toNat = (inside.toNat + s.count '"') % 2 := by
  induction s generalizing inside with
  | nil => cases inside <;> rfl
  | cons c rest ih =>
      rw [insideAfter_cons, ih]
      by_cases hQuote : c = '"'
      · subst hQuote
        cases inside <;> simp [turn] <;> omega
      · simp [turn, hQuote]

/-- The reader finds nothing when it ends inside quotes, and only then. -/
theorem scan_eq_none_iff (inside : Bool) (line : List Char) :
    scan inside line = none ↔ insideAfter inside line = true := by
  fun_induction scan inside line with
  | case1 => simp
  | case2 => simp
  | case3 rest ih => simpa [turn] using ih
  | case4 rest hQuote ih => simpa [turn] using ih
  | case5 c rest hQuote hComma ih => simpa [turn, hQuote] using ih
  | case6 rest ih => simpa [turn] using ih
  | case7 rest _ ih => simpa [turn] using ih
  | case8 c rest _ hQuote ih => simpa [turn, hQuote] using ih

/-! ## The state of the reader -/

theorem count_quote_append (before : List Char) :
    (before ++ ['"']).count '"' = before.count '"' + 1 := by
  simp

theorem count_quote_append_of_ne {c : Char} (hQuote : c ≠ '"') (before : List Char) :
    (before ++ [c]).count '"' = before.count '"' := by
  simp [hQuote]

/-- The state of the reader between the text that it went past and the rest of the line. -/
structure Stands (inside : Bool) (before rest : List Char) : Prop where
  parity : before.count '"' % 2 = inside.toNat
  /-- Outside of quotes it does not stand between two quotes. -/
  apart : inside = false → before.getLast? = some '"' → rest.head? ≠ some '"'

namespace Stands

variable {inside : Bool} {before rest : List Char} {c : Char}

theorem start (chars : List Char) : Stands false [] chars :=
  ⟨rfl, fun _ hLast => by cases hLast⟩

theorem plain (h : Stands inside before (c :: rest)) (hQuote : c ≠ '"') :
    Stands inside (before ++ [c]) rest := by
  refine ⟨?_, fun _ hLast => ?_⟩
  · rw [count_quote_append_of_ne hQuote, h.parity]
  · rw [List.getLast?_concat, Option.some.injEq] at hLast
    exact absurd hLast hQuote

theorem opening (h : Stands false before ('"' :: rest)) : Stands true (before ++ ['"']) rest := by
  refine ⟨?_, fun hOutside => by cases hOutside⟩
  have hEven := h.parity
  rw [Bool.toNat_false] at hEven
  rw [count_quote_append, Bool.toNat_true]
  omega

theorem pair (h : Stands true before ('"' :: '"' :: rest)) :
    Stands true (before ++ ['"'] ++ ['"']) rest := by
  refine ⟨?_, fun hOutside => by cases hOutside⟩
  have hOdd := h.parity
  rw [Bool.toNat_true] at hOdd ⊢
  rw [count_quote_append, count_quote_append]
  omega

/-- A closing quote is no first half of a pair, so no quote comes right after it. -/
theorem closing (h : Stands true before ('"' :: rest)) (hSingle : rest.head? ≠ some '"') :
    Stands false (before ++ ['"']) rest := by
  refine ⟨?_, fun _ _ => hSingle⟩
  have hOdd := h.parity
  rw [Bool.toNat_true] at hOdd
  rw [count_quote_append, Bool.toNat_false]
  omega

theorem fieldsAfter_comma (h : Stands false before (',' :: rest)) :
    fieldsAfter before (',' :: rest) = [] :: fieldsAfter (before ++ [',']) rest :=
  Csv.fieldsAfter_comma rest h.parity

/-- A comma is an ordinary character inside quotes. -/
theorem fieldsAfter_plain (h : Stands inside before (c :: rest)) (hQuote : c ≠ '"')
    (hComma : c = ',' → inside = true) :
    fieldsAfter before (c :: rest) = extendFirst c (fieldsAfter (before ++ [c]) rest) := by
  refine fieldsAfter_kept rest (fun hEq => ?_) fun hEq => absurd hEq hQuote
  rw [h.parity, hComma hEq, Bool.toNat_true]

/-- An opening quote is dropped, for no quote stands right before it. -/
theorem fieldsAfter_opening (h : Stands false before ('"' :: rest)) :
    fieldsAfter before ('"' :: rest) = fieldsAfter (before ++ ['"']) rest :=
  fieldsAfter_dropped rest fun _ hLast => h.apart rfl hLast rfl

/-- The first quote inside quotes is dropped, for an odd number of them stand before it. -/
theorem fieldsAfter_first (h : Stands true before ('"' :: rest)) :
    fieldsAfter before ('"' :: rest) = fieldsAfter (before ++ ['"']) rest := by
  have hOdd := h.parity
  rw [Bool.toNat_true] at hOdd
  refine fieldsAfter_dropped rest fun hEven => ?_
  omega

/-- Of a pair inside quotes the second one is kept. -/
theorem fieldsAfter_pair (h : Stands true before ('"' :: '"' :: rest)) :
    fieldsAfter before ('"' :: '"' :: rest) =
      extendFirst '"' (fieldsAfter (before ++ ['"'] ++ ['"']) rest) := by
  have hOdd := h.parity
  rw [Bool.toNat_true] at hOdd
  have hEven : (before ++ ['"']).count '"' % 2 = 0 := by
    rw [count_quote_append]
    omega
  rw [h.fieldsAfter_first]
  exact fieldsAfter_kept rest (fun hEq => by cases hEq)
    fun _ => ⟨hEven, List.getLast?_concat⟩

end Stands

/-! ## What the reader finds -/

/-- What the reader finds behind a text that it went past. -/
theorem eq_fieldsAfter_of_scan {inside : Bool} {before rest : List Char}
    {fields : List (List Char)} (h : scan inside rest = some fields)
    (hStands : Stands inside before rest) : fields = fieldsAfter before rest := by
  fun_induction scan inside rest generalizing before fields with
  | case1 =>
      cases h
      exact (fieldsAfter_nil before).symm
  | case2 => cases h
  | case3 rest ih =>
      rw [hStands.fieldsAfter_opening]
      exact ih h hStands.opening
  | case4 rest hQuote ih =>
      obtain ⟨pieces, hRest, rfl⟩ := Option.map_eq_some_iff.mp h
      rw [hStands.fieldsAfter_comma, ih hRest (hStands.plain hQuote)]
  | case5 c rest hQuote hComma ih =>
      obtain ⟨pieces, hRest, rfl⟩ := Option.map_eq_some_iff.mp h
      rw [hStands.fieldsAfter_plain hQuote fun hEq => absurd hEq hComma,
        ih hRest (hStands.plain hQuote)]
  | case6 rest ih =>
      obtain ⟨pieces, hRest, rfl⟩ := Option.map_eq_some_iff.mp h
      rw [hStands.fieldsAfter_pair, ih hRest hStands.pair]
  | case7 rest hSingle ih =>
      rw [hStands.fieldsAfter_first]
      refine ih h (hStands.closing fun hHead => ?_)
      obtain ⟨tail, rfl⟩ := List.head?_eq_some_iff.mp hHead
      exact hSingle tail rfl rfl
  | case8 c rest _ hQuote ih =>
      obtain ⟨pieces, hRest, rfl⟩ := Option.map_eq_some_iff.mp h
      rw [hStands.fieldsAfter_plain hQuote fun _ => rfl, ih hRest (hStands.plain hQuote)]

/-- The reader ends inside quotes when the line has an odd number of them. -/
theorem insideAfter_eq_true_iff (line : List Char) :
    insideAfter false line = true ↔ line.count '"' % 2 = 1 := by
  have hCount := toNat_insideAfter false line
  rw [Bool.toNat_false, Nat.zero_add] at hCount
  rw [← hCount]
  cases insideAfter false line <;> simp

/-- The fields that the reader finds are those by the parity of the quotes. -/
theorem scan_eq_some_iff {line : List Char} {fields : List (List Char)} :
    scan false line = some fields ↔ line.count '"' % 2 = 0 ∧ fields = fieldsByParity line := by
  have hOdd := (scan_eq_none_iff false line).trans (insideAfter_eq_true_iff line)
  have hFields : ∀ found, scan false line = some found → found = fieldsByParity line := by
    intro found h
    have hAfter : found = fieldsAfter [] line :=
      eq_fieldsAfter_of_scan h (.start line)
    rwa [fieldsAfter, List.nil_append, List.length_nil, ← List.range_eq_range'] at hAfter
  cases hScan : scan false line with
  | none =>
      have hCount := hOdd.mp hScan
      simp only [reduceCtorEq, false_iff, not_and]
      omega
  | some found =>
      have hCount : line.count '"' % 2 = 0 := by
        have hNotOdd : ¬line.count '"' % 2 = 1 := by simp [← hOdd, hScan]
        omega
      rw [Option.some.injEq, hFields found hScan]
      exact ⟨fun hEq => ⟨hCount, hEq.symm⟩, fun hBoth => hBoth.2.symm⟩

theorem split_eq_error_iff {line : String} {fault : Fault} :
    split line = .error fault ↔
      line.toList.count '"' % 2 = 1 ∧ fault = .unclosedQuote line := by
  rw [← insideAfter_eq_true_iff, ← scan_eq_none_iff, split]
  cases scan false line.toList with
  | none => simp [eq_comm]
  | some found => simp

theorem split_eq_ok_iff {line : String} {fields : List String} :
    split line = .ok fields ↔
      line.toList.count '"' % 2 = 0 ∧ fields = (fieldsByParity line.toList).map .ofList := by
  have hScan : split line = .ok fields ↔
      ∃ found, scan false line.toList = some found ∧ fields = found.map .ofList := by
    unfold split
    cases scan false line.toList <;> simp [eq_comm]
  rw [hScan]
  constructor
  · rintro ⟨found, hFound, rfl⟩
    obtain ⟨hEven, rfl⟩ := scan_eq_some_iff.mp hFound
    exact ⟨hEven, rfl⟩
  · rintro ⟨hEven, rfl⟩
    exact ⟨_, scan_eq_some_iff.mpr ⟨hEven, rfl⟩, rfl⟩

/-- There is one field more than there are cuts. -/
theorem length_fieldsByParity (line : List Char) :
    (fieldsByParity line).length = cuts line + 1 :=
  length_fieldsAt line _

/-- **A line is read by the parity of its quotes.** It is refused when their number is odd.
Otherwise its fields are what is kept of it between the cuts, so there is one more of them than
there are commas with an even number of quotes before them. -/
theorem split_by_parity (line : String) :
    (∀ fault, split line = .error fault ↔
      line.toList.count '"' % 2 = 1 ∧ fault = .unclosedQuote line) ∧
    (∀ fields, split line = .ok fields ↔
      line.toList.count '"' % 2 = 0 ∧ fields = (fieldsByParity line.toList).map .ofList) ∧
    (fieldsByParity line.toList).length = cuts line.toList + 1 :=
  ⟨fun _ => split_eq_error_iff, fun _ => split_eq_ok_iff, length_fieldsByParity _⟩

/-- Quotes may open and close within a field, and only a pair inside them leaves one. -/
example : fieldsByParity "x\"a\"\"b,c\"y,\"\"z".toList = ["xa\"b,cy".toList, "z".toList] := by
  decide

end FlavorTable.Csv
