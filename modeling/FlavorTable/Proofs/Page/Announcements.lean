import FlavorTable.Proofs.Page.Containers
import FlavorTable.Text.Word

/-!
# Announced counts

Rows are announced by a paragraph that ends with their number, and shown right
after it: as a table with a record for each, or by a notice if there are none.
Only a remark may stand between the two, and all of it is drawn in the same
container.

The number can be read off the text, whatever the title says, for it is in the
last word.  So what an announcement promises is determined by the page alone,
and a page keeps its promises when each of the parts it is drawn from does.

## Main results

* `eq_of_announcement_eq` — an announcement determines its number.
* `CountsHold.append`, `CountsHold.inside` — parts that keep their promises make
  a page that does.
* `countsHold_showRows`, `countsHold_answer` — the parts in which rows are shown.
-/

namespace FlavorTable.Page

/-! ## The number of an announcement -/

theorem space_not_mem_toString (n : Nat) : ' ' ∉ (toString n).toList := by
  rw [Nat.toString_eq_ofList_toDigits, String.toList_ofList]
  intro hSpace
  have hDigit := Nat.isDigit_of_mem_toDigits (by decide) (by decide) hSpace
  cases hDigit

theorem toString_inj {m n : Nat} (h : toString m = toString n) : m = n := by
  rw [Nat.toString_eq_ofList_toDigits, Nat.toString_eq_ofList_toDigits] at h
  have hDigits := congrArg String.toList h
  rw [String.toList_ofList, String.toList_ofList] at hDigits
  calc
    m = Nat.ofDigitChars 10 (Nat.toDigits 10 m) 0 := Nat.ofDigitChars_ten_toDigits.symm
    _ = Nat.ofDigitChars 10 (Nat.toDigits 10 n) 0 := by rw [hDigits]
    _ = n := Nat.ofDigitChars_ten_toDigits

theorem lastWord_announcement (title : String) (count : Nat) :
    Text.lastWord (announcement title count) = toString count ++ "_" := by
  have hSplit : announcement title count =
      "**" ++ title ++ "** — _rows:" ++ " " ++ (toString count ++ "_") := by
    have hRows : "** — _rows: " = "** — _rows:" ++ " " := rfl
    simp only [announcement, hRows, String.append_assoc]
  have hList : (toString count ++ "_").toList = (toString count).toList ++ ['_'] :=
    String.toList_append
  have hWord : ' ' ∉ (toString count ++ "_").toList := by
    rw [hList, List.mem_append]
    rintro (hCount | hEnd)
    · exact space_not_mem_toString count hCount
    · cases List.mem_singleton.mp hEnd
  have hNil : toString count ++ "_" ≠ "" := by
    intro hEmpty
    rw [hEmpty] at hList
    exact List.append_ne_nil_of_right_ne_nil _ (List.cons_ne_nil _ _) hList.symm
  rw [hSplit, Text.lastWord_append_word _ hWord hNil]

/-- An announcement determines its number. -/
theorem eq_of_announcement_eq {title other : String} {count n : Nat}
    (h : announcement title count = announcement other n) : count = n := by
  have hWord := congrArg Text.lastWord h
  rw [lastWord_announcement, lastWord_announcement] at hWord
  exact toString_inj ((String.append_left_inj "_").mp hWord)

/-! ## What follows an announcement -/

/-- The event announces so many rows. -/
def Event.Announces (event : Event) (count : Nat) : Prop :=
  ∃ title, event.call = .markdown (announcement title count)

/-- The call shows so many rows. -/
inductive Call.Displays : Call → Nat → Prop where
  | table {records : List Record} (h : records ≠ []) : Displays (.table records) records.length
  | notice (text : String) : Displays (.info text) 0

/-- The events go on, in the given containers, with a display of so many rows.
A remark may stand before it. -/
inductive Followed (within : List Container) (count : Nat) : List Event → Prop where
  | display {call : Call} {after : List Event} (h : call.Displays count) :
      Followed within count (⟨call, within⟩ :: after)
  | remark {text : String} {after : List Event} (h : Followed within count after) :
      Followed within count (⟨.caption text, within⟩ :: after)

/-- Every number of rows that is announced is the number of rows shown next in
the same container. -/
def CountsHold : List Event → Prop
  | [] => True
  | event :: after =>
      (∀ count, event.Announces count → Followed event.within count after) ∧ CountsHold after

variable {within : List Container} {count : Nat} {events left right : List Event}

theorem Followed.append (h : Followed within count left) (right : List Event) :
    Followed within count (left ++ right) := by
  induction h with
  | display h => exact .display h
  | remark _ ih => exact .remark ih

theorem Followed.inside (container : Container) (h : Followed within count events) :
    Followed (container :: within) count (inside container events) := by
  induction h with
  | display h => exact .display h
  | remark _ ih => exact .remark ih

/-! ## Parts of a page -/

theorem CountsHold.append (hLeft : CountsHold left) (hRight : CountsHold right) :
    CountsHold (left ++ right) := by
  induction left with
  | nil => exact hRight
  | cons event after ih =>
      obtain ⟨hEvent, hAfter⟩ := hLeft
      exact ⟨fun count hCount => (hEvent count hCount).append right, ih hAfter⟩

theorem CountsHold.inside (container : Container) (h : CountsHold events) :
    CountsHold (inside container events) := by
  induction events with
  | nil => trivial
  | cons event after ih =>
      obtain ⟨hEvent, hAfter⟩ := h
      exact ⟨fun count hCount => (hEvent count hCount).inside container, ih hAfter⟩

/-- Where nothing is announced nothing is promised. -/
theorem countsHold_of_silent (h : ∀ call ∈ calls events, ∀ text, call ≠ .markdown text) :
    CountsHold events := by
  induction events with
  | nil => trivial
  | cons event after ih =>
      refine ⟨?_, ih fun call hCall => h call (List.mem_cons_of_mem _ hCall)⟩
      rintro count ⟨title, hText⟩
      exact absurd hText (h event.call List.mem_cons_self _)

theorem countsHold_atTop {made : List Call} (h : ∀ call ∈ made, ∀ text, call ≠ .markdown text) :
    CountsHold (atTop made) :=
  countsHold_of_silent (by simpa using h)

theorem displays_rows (rows : List Row) :
    Call.Displays (if rows.isEmpty then .info "Empty result set." else .table (Row.records rows))
      rows.length := by
  cases rows with
  | nil => exact .notice _
  | cons row rest =>
      have hLength : (Row.records (row :: rest)).length = (row :: rest).length := by
        rw [Row.records, List.length_map, (Row.sorted_perm _).length_eq]
      rw [← hLength]
      refine .table ?_
      intro hNil
      rw [hNil] at hLength
      cases hLength

/-- Rows are shown as they are announced. -/
theorem countsHold_showRows (title : String) (rows : List Row) (remark : Option String) :
    CountsHold (showRows title rows remark) := by
  have hShown : Followed [] rows.length
      [⟨if rows.isEmpty then .info "Empty result set." else .table (Row.records rows), []⟩] :=
    .display (displays_rows rows)
  refine ⟨?_, countsHold_atTop ?_⟩
  · rintro count ⟨other, hText⟩
    have hCount : rows.length = count := eq_of_announcement_eq (Call.markdown.inj hText)
    subst hCount
    cases remark with
    | none => exact hShown
    | some text => exact .remark hShown
  · intro call hCall text hEq
    subst hEq
    cases remark <;> cases rows <;> simp at hCall

/-! ## The page with an answer -/

theorem countsHold_frame : CountsHold frame := by
  refine .append (.append ?_ ?_) ?_
  · exact countsHold_atTop (by simp)
  · exact (countsHold_atTop (by simp)).inside _
  · exact (countsHold_atTop (by simp)).inside _

theorem countsHold_allRows (rows : List Row) : CountsHold (allRows rows) :=
  (countsHold_atTop (by simp)).append (countsHold_showRows _ _ _)

theorem countsHold_runButton : CountsHold runButton := countsHold_atTop (by simp)

variable (request : Request) (plan : Plan) (compared : Option RowSet)

theorem countsHold_stages : CountsHold (stages request plan) :=
  (((countsHold_showRows _ _ _).append (countsHold_showRows _ _ _)).append
    (countsHold_showRows _ _ _)).append (countsHold_showRows _ _ _)

theorem countsHold_comparison (found : RowSet) : CountsHold (comparison plan found) :=
  (countsHold_atTop (by simp)).append ((countsHold_showRows _ _ _).inside _)

theorem countsHold_resultTable (result : RowSet) : CountsHold (resultTable result) := by
  refine (countsHold_showRows _ _ _).append ?_
  split
  · trivial
  · exact countsHold_atTop (by simp)

/-- Every part of an answer shows its rows as it announces them. -/
theorem countsHold_answer : CountsHold (answer request plan compared) := by
  have hCompared : CountsHold ((compared.map (comparison plan)).getD []) := by
    cases compared with
    | none => trivial
    | some found => exact countsHold_comparison plan found
  refine .append (.append (.append ?_ ?_) ?_) ?_
  · exact countsHold_atTop (by simp)
  · exact ((countsHold_stages request plan).append hCompared).inside _
  · exact (countsHold_resultTable plan.result).inside _
  · exact (countsHold_atTop (by simp)).inside _

end FlavorTable.Page
