import Mathlib.Data.List.Forall2
import FlavorTable.Proofs.Csv.Format

/-!
# The line that stands for the header

The first line with content stands for the header, and it is not read.  A text
without such a line is refused because its header is missing, and this is the
only text so refused: whether the line says what a header says makes no
difference to the outcome, and neither does anything else about it.

All other lines with content give a row each.  So when the first line is a
header, the header is all that gives no row.  When it is not, a text with no
header passes for one with a header, and if its first line could be read as a
row, this row is lost: with a header put in front it would be there.

## Main results

* `parse_eq_ok_iff_of_content` — rows come from the lines behind the first one.
* `onlyHeaderSpent_iff` — when the header is all that gives no row.
* `header_goes_unread` — the first line with content, whatever it says.
* `parse_spends_first_row` — a text without a header whose first row is lost.
-/

namespace FlavorTable.Csv

open FlavorTable.Text

/-- The line has the fields of the row. -/
def Gives (line : List Char) (row : Row) : Prop := split (.ofList line) = .ok row.fields

/-- The line has the column names in its fields. -/
def IsHeaderLine (line : List Char) : Prop := Gives line Row.header

/-- The lines with content are a header line and lines that give the rows, in order. -/
def OnlyHeaderSpent (text : String) (rows : List Row) : Prop :=
  ∃ header body, content text.toList = header :: body ∧ IsHeaderLine header ∧
    List.Forall₂ Gives body rows

variable {text : String} {first : List Char} {body : List (List Char)} {rows : List Row}

/-- A line has the fields of one row at most. -/
theorem Gives.unique {line : List Char} {row other : Row} (hRow : Gives line row)
    (hOther : Gives line other) : row = other := by
  have hFields : row.fields = other.fields := Except.ok.inj (hRow.symm.trans hOther)
  exact Row.fields_injective hFields

/-- What is said of the lines behind some first line is said of those behind this one. -/
theorem exists_cons_eq_iff {P : List (List Char) → Prop} :
    (∃ header others, first :: body = header :: others ∧ P others) ↔ P body := by
  constructor
  · rintro ⟨header, others, hSame, hOthers⟩
    rw [(List.cons.inj hSame).2]
    exact hOthers
  · intro hBody
    exact ⟨first, body, rfl, hBody⟩

/-- The rows of a text are given by the lines behind its first one, in order. -/
theorem parse_eq_ok_iff_of_content (hContent : content text.toList = first :: body) :
    parse text = .ok rows ↔ List.Forall₂ Gives body rows := by
  rw [parse_eq_ok_iff, hContent, exists_cons_eq_iff, ← List.forall₂_eq_eq_eq,
    List.forall₂_map_left_iff, List.forall₂_map_right_iff]
  rfl

/-- A text is refused for one of the lines behind its first one. -/
theorem exists_parse_error_iff (hContent : content text.toList = first :: body) :
    (∃ fault, parse text = .error fault) ↔ ∃ line ∈ body, ¬IsRowLine line := by
  have hAccepted : (∃ rows, parse text = .ok rows) ↔ ∀ line ∈ body, IsRowLine line := by
    rw [exists_parse_iff, hContent, exists_cons_eq_iff]
  cases hParse : parse text with
  | error fault =>
      have hNone : ¬∀ line ∈ body, IsRowLine line := by
        intro hBody
        obtain ⟨rows, hRows⟩ := hAccepted.mpr hBody
        rw [hParse] at hRows
        cases hRows
      simpa using hNone
  | ok rows =>
      have hBody := hAccepted.mp ⟨rows, hParse⟩
      simpa using hBody

/-- In an accepted text the header is all that gives no row when the first line is one. -/
theorem onlyHeaderSpent_iff (hContent : content text.toList = first :: body)
    (hParse : parse text = .ok rows) : OnlyHeaderSpent text rows ↔ IsHeaderLine first := by
  constructor
  · rintro ⟨header, others, hSame, hHeader, -⟩
    rw [hContent] at hSame
    rwa [(List.cons.inj hSame).1]
  · intro hHeader
    exact ⟨first, body, hContent, hHeader, (parse_eq_ok_iff_of_content hContent).mp hParse⟩

/-- A line put in front of a text is the first line with content. -/
theorem content_header_append (text : String) :
    content ("Maker,Flavor,BaseFlavor\n" ++ text).toList =
      "Maker,Flavor,BaseFlavor".toList :: content text.toList := by
  have hLine : "Maker,Flavor,BaseFlavor\n".toList =
      "Maker,Flavor,BaseFlavor".toList ++ ['\n'] := rfl
  have hHeader : content "Maker,Flavor,BaseFlavor".toList =
      ["Maker,Flavor,BaseFlavor".toList] := rfl
  rw [String.toList_append, hLine, List.append_assoc, List.singleton_append,
    content_append_newline, hHeader, List.singleton_append]

/-- With a header put in front, the first line of a text gives its row as well. -/
theorem parse_header_append {row : Row} (hContent : content text.toList = first :: body)
    (hParse : parse text = .ok rows) (hFirst : Gives first row) :
    parse ("Maker,Flavor,BaseFlavor\n" ++ text) = .ok (row :: rows) := by
  have hAll := content_header_append text
  rw [hContent] at hAll
  rw [parse_eq_ok_iff_of_content hAll]
  exact .cons hFirst ((parse_eq_ok_iff_of_content hContent).mp hParse)

/-- **The header goes unread.** A text is refused for its missing header when it
has no line with content, and only then.  Any other text is accepted or refused
for the lines behind its first line with content, whatever that line says, and
an accepted text has one row for each of them, in order.  So the header is all
that gives no row exactly when the first line is a header line; and if the first
line is read as a row, this row is missing, for with a header put in front of
the text it is there. -/
theorem header_goes_unread (text : String) :
    (parse text = .error .missingHeader ↔ content text.toList = []) ∧
    ∀ first body, content text.toList = first :: body →
      ((∃ fault, parse text = .error fault) ↔ ∃ line ∈ body, ¬IsRowLine line) ∧
      ∀ rows, parse text = .ok rows →
        List.Forall₂ Gives body rows ∧
        (OnlyHeaderSpent text rows ↔ IsHeaderLine first) ∧
        ∀ row, Gives first row →
          parse ("Maker,Flavor,BaseFlavor\n" ++ text) = .ok (row :: rows) := by
  refine ⟨?_, ?_⟩
  · rw [parse_eq_missingHeader_iff, ← map_fst_contentLines, List.map_eq_nil_iff]
  · intro first body hContent
    refine ⟨exists_parse_error_iff hContent, ?_⟩
    intro rows hParse
    exact ⟨(parse_eq_ok_iff_of_content hContent).mp hParse,
      onlyHeaderSpent_iff hContent hParse, fun row => parse_header_append hContent hParse⟩

/-- A text with two rows and no header. -/
def headless : String := "Ben,Mint,Misc\nZoe,Mint,Misc"

theorem content_headless :
    content headless.toList = ["Ben,Mint,Misc".toList, "Zoe,Mint,Misc".toList] := rfl

/-- The header of a text may be quoted and stand behind blank lines.  A text without one gets its
first row back with a header. -/
theorem header_goes_unread_quoted :
    OnlyHeaderSpent "\n \n\"Maker\",Flavor,\"BaseFlavor\"\r\nZoe,Mint,Misc"
        [⟨"Zoe", "Mint", "Misc"⟩] ∧
      parse ("Maker,Flavor,BaseFlavor\n" ++ headless) =
        .ok [⟨"Ben", "Mint", "Misc"⟩, ⟨"Zoe", "Mint", "Misc"⟩] := by
  obtain ⟨-, hQuoted⟩ :=
    header_goes_unread "\n \n\"Maker\",Flavor,\"BaseFlavor\"\r\nZoe,Mint,Misc"
  obtain ⟨-, hHeadless⟩ := header_goes_unread headless
  have hContent : content "\n \n\"Maker\",Flavor,\"BaseFlavor\"\r\nZoe,Mint,Misc".toList =
      ["\"Maker\",Flavor,\"BaseFlavor\"".toList, "Zoe,Mint,Misc".toList] := by
    rfl
  obtain ⟨-, hSpent, -⟩ := (hQuoted _ _ hContent).2 _ rfl
  obtain ⟨-, -, hRegained⟩ := (hHeadless _ _ content_headless).2 _ rfl
  exact ⟨hSpent.mpr rfl, hRegained _ rfl⟩

/-- A text without a header line is accepted, and its first row is lost. -/
theorem parse_spends_first_row :
    (∀ line ∈ content headless.toList, ¬IsHeaderLine line) ∧
      Gives "Ben,Mint,Misc".toList ⟨"Ben", "Mint", "Misc"⟩ ∧
      parse headless = .ok [⟨"Zoe", "Mint", "Misc"⟩] := by
  have hBen : Gives "Ben,Mint,Misc".toList ⟨"Ben", "Mint", "Misc"⟩ := rfl
  have hZoe : Gives "Zoe,Mint,Misc".toList ⟨"Zoe", "Mint", "Misc"⟩ := rfl
  refine ⟨?_, hBen, rfl⟩
  rw [content_headless]
  intro line hLine hHeader
  rcases List.mem_pair.mp hLine with rfl | rfl
  · exact absurd (hBen.unique hHeader) (by decide)
  · exact absurd (hZoe.unique hHeader) (by decide)

end FlavorTable.Csv
