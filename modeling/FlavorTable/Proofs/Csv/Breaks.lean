import FlavorTable.Proofs.Csv.Header
import FlavorTable.Proofs.Text.Breaks

/-!
# Tables and the breaks of their lines

A table is read line by line, and blank lines are skipped, so what is read
depends on the content of the text only: neither on how the lines end nor on
the blank lines between them.  What these do change is the number of a line,
and a fault may name one.

Each line is read by itself, from outside of quotes.  A quote left open at the
end of a line is a fault and does not carry over to the next one.

## Main results

* `readAlike_of_content` — texts with the same content are read alike.
* `readFrom_of_parse` — the rows of a text come from single lines with closed quotes.
* `parse_sees_content_only` — what reading a table depends on.
-/

namespace FlavorTable.Csv

open FlavorTable.Text

/-! ## Faults without their numbers -/

/-- The fault as it would be if the line were number zero. -/
def Fault.unnumbered : Fault → Fault
  | .fieldCount _ line count => .fieldCount 0 line count
  | fault => fault

/-- Both readings give the same result, or faults that differ in the number of the line at most. -/
def ReadAlike {α : Type} (a b : Except Fault α) : Prop :=
  (∃ result, a = .ok result ∧ b = .ok result) ∨
    ∃ fault other, a = .error fault ∧ b = .error other ∧ fault.unnumbered = other.unnumbered

theorem readAlike_of_eq {α : Type} {a b : Except Fault α} (h : a = b) : ReadAlike a b := by
  subst h
  cases a with
  | ok result => exact .inl ⟨result, rfl, rfl⟩
  | error fault => exact .inr ⟨fault, fault, rfl, rfl, rfl⟩

/-- The number of a line makes no difference to how it is read. -/
theorem readAlike_readRow (line : String) (number other : Nat) :
    ReadAlike (readRow line number) (readRow line other) := by
  unfold readRow
  cases split line with
  | error fault => exact readAlike_of_eq rfl
  | ok fields =>
      simp only [bind, Except.bind]
      cases Row.ofFields? fields with
      | some row => exact readAlike_of_eq rfl
      | none => exact .inr ⟨_, _, rfl, rfl, rfl⟩

/-- Parts that are read alike one by one are read alike together. -/
theorem ReadAlike.mapM {α β : Type} {read : α → Except Fault β} {parts others : List α}
    (h : List.Forall₂ (fun part other => ReadAlike (read part) (read other)) parts others) :
    ReadAlike (parts.mapM read) (others.mapM read) := by
  induction h with
  | nil => exact readAlike_of_eq rfl
  | cons hFirst _ ih =>
      rcases hFirst with ⟨first, hPart, hOther⟩ | ⟨fault, second, hPart, hOther, hSame⟩
      · rw [mapM_cons_of_ok hPart, mapM_cons_of_ok hOther]
        rcases ih with ⟨rest, hParts, hOthers⟩ | ⟨fault, second, hParts, hOthers, hSame⟩
        · rw [hParts, hOthers]
          exact readAlike_of_eq rfl
        · rw [hParts, hOthers]
          exact .inr ⟨fault, second, rfl, rfl, hSame⟩
      · rw [mapM_cons_of_error hPart, mapM_cons_of_error hOther]
        exact .inr ⟨fault, second, rfl, rfl, hSame⟩

/-- Lines are read as rows alike, however they are numbered. -/
theorem readAlike_mapM_readRow {numbered others : List (List Char × Nat)}
    (h : numbered.map Prod.fst = others.map Prod.fst) :
    ReadAlike (numbered.mapM fun line => readRow (.ofList line.1) line.2)
      (others.mapM fun line => readRow (.ofList line.1) line.2) := by
  rw [← List.forall₂_eq_eq_eq, List.forall₂_map_left_iff, List.forall₂_map_right_iff] at h
  apply ReadAlike.mapM
  refine h.imp fun line other hLine => ?_
  rw [hLine]
  exact readAlike_readRow _ _ _

theorem readAlike_of_content {a b : String} (h : content a.toList = content b.toList) :
    ReadAlike (parse a) (parse b) := by
  rw [← map_fst_contentLines, ← map_fst_contentLines] at h
  unfold parse
  cases hA : contentLines a with
  | nil =>
      rw [hA, List.map_nil, eq_comm, List.map_eq_nil_iff] at h
      rw [h]
      exact readAlike_of_eq rfl
  | cons header body =>
      cases hB : contentLines b with
      | nil =>
          rw [hA, hB] at h
          cases h
      | cons other others =>
          rw [hA, hB, List.map_cons, List.map_cons] at h
          exact readAlike_mapM_readRow (List.cons.inj h).2

/-! ## Rows and their lines -/

/-- The row is read from this line alone, and the quotes of the line are closed on it. -/
structure ReadFrom (line : List Char) (row : Row) : Prop where
  closed : line.count '"' % 2 = 0
  fields : Gives line row

theorem Gives.readFrom {line : List Char} {row : Row} (h : Gives line row) : ReadFrom line row := by
  have hCount := (split_eq_ok_iff.mp h).1
  rw [String.toList_ofList] at hCount
  exact { closed := hCount, fields := h }

/-- The rows of a text are read one from each line of its content, behind the first. -/
theorem readFrom_of_parse {text : String} {rows : List Row} (h : parse text = .ok rows) :
    List.Forall₂ ReadFrom (content text.toList).tail rows := by
  obtain ⟨header, body, hContent, -⟩ := parse_eq_ok_iff.mp h
  rw [hContent, List.tail_cons]
  exact ((parse_eq_ok_iff_of_content hContent).mp h).imp fun _ _ hGives => hGives.readFrom

/-- A line with an open quote is not completed by the next one. -/
theorem exists_fault_of_open_quote {text : String} {line : List Char}
    (hLine : line ∈ (content text.toList).tail) (hOpen : line.count '"' % 2 = 1) :
    ∃ fault, parse text = .error fault := by
  cases hContent : content text.toList with
  | nil =>
      rw [hContent] at hLine
      cases hLine
  | cons header body =>
      rw [hContent, List.tail_cons] at hLine
      refine (exists_parse_error_iff hContent).mpr ⟨line, hLine, fun hRow => ?_⟩
      have hClosed := hRow.1
      omega

/-- **Only the content of a text counts.** Take lines without breaks, put any of
the breaks behind each, with or without one at the end, and put blank lines in
or take them out: the texts are read as the same rows, or both are refused,
with faults that differ in the number of the line at most.  Every text is made
of its physical lines in this way.  If it is accepted, each row is read from one
of them, whose quotes are closed, and no field holds a break character; a line
behind the header that leaves a quote open has the text refused. -/
theorem parse_sees_content_only (text : String) :
    (∀ {all others : List (List Char)} {other : String}, SameButBlank all others →
      Concatenates all text.toList → Concatenates others other.toList →
      ReadAlike (parse text) (parse other)) ∧
    Concatenates (lines text.toList) text.toList ∧
    (∀ rows, parse text = .ok rows →
      List.Forall₂ ReadFrom (content text.toList).tail rows ∧
      ∀ row ∈ rows, ∀ field ∈ row.fields, ∀ c ∈ field.toList, c ∉ breakChars) ∧
    ∀ line ∈ (content text.toList).tail, line.count '"' % 2 = 1 →
      ∃ fault, parse text = .error fault := by
  refine ⟨?_, concatenates_lines _, ?_, fun line => exists_fault_of_open_quote⟩
  · intro all others other hSame hText hOther
    exact readAlike_of_content (hSame.content_eq hText hOther)
  · intro rows hParse
    refine ⟨readFrom_of_parse hParse, ?_⟩
    intro row hRow field hField c hc hBreak
    have hFree := breakFree_of_parse hParse hRow field hField c hc
    rw [isBreak_iff.mpr hBreak] at hFree
    cases hFree

/-- The break of the header and that of the empty line below it make a pair, and the text is read
like one with other breaks and another blank line. -/
theorem parse_sees_content_only_paired :
    ReadAlike (parse ("Maker,Flavor,BaseFlavor\r" ++ "" ++ "\nBen,Mint,Misc"))
        (parse " \x0bMaker,Flavor,BaseFlavor\u2028Ben,Mint,Misc\x85") ∧
      parse " \x0bMaker,Flavor,BaseFlavor\u2028Ben,Mint,Misc\x85" =
        .ok [⟨"Ben", "Mint", "Misc"⟩] := by
  have hSame : SameButBlank
      ["Maker,Flavor,BaseFlavor".toList, [], "Ben,Mint,Misc".toList]
      [[' '], "Maker,Flavor,BaseFlavor".toList, "Ben,Mint,Misc".toList] :=
    .right rfl (.both _ (.left rfl (.both _ .nil)))
  have hText : Concatenates ["Maker,Flavor,BaseFlavor".toList, [], "Ben,Mint,Misc".toList]
      ("Maker,Flavor,BaseFlavor\r" ++ "" ++ "\nBen,Mint,Misc").toList :=
    .ended (by decide) (show ['\r'] ∈ breaks by decide)
      (.ended (by decide) (show ['\n'] ∈ breaks by decide) (.last (by decide)))
  have hOther : Concatenates [[' '], "Maker,Flavor,BaseFlavor".toList, "Ben,Mint,Misc".toList]
      " \x0bMaker,Flavor,BaseFlavor\u2028Ben,Mint,Misc\x85".toList :=
    .ended (by decide) (show ['\x0b'] ∈ breaks by decide)
      (.ended (by decide) (show ['\u2028'] ∈ breaks by decide)
        (.ended (by decide) (show ['\x85'] ∈ breaks by decide) .nil))
  exact ⟨(parse_sees_content_only _).1 hSame hText hOther, rfl⟩

end FlavorTable.Csv
