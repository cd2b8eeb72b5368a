import FlavorTable.Proofs.Index.Entries
import FlavorTable.Proofs.Lookup.Seek

/-!
# What a scan finds

A scan walks the entries of the primary index and remembers its answer for
each maker, so that a maker with many products is tested once.  The memory
never lies: every answer in it is the answer of the test.  Hence the scan
keeps exactly the entries that the test alone would keep, and these are the
rows that are the last ones of their products.

## Main results

* `Scan.Sound.step` — a step keeps the memory truthful.
* `kept_scan` — the scan with memory keeps what the plain filter keeps.
* `mem_rowsByMaker` — the rows that a scan finds.
-/

namespace FlavorTable.Engine

/-- The rows that a scan for a suffix finds. -/
def rowsByMaker (engine : Engine) (suffix : Value) : RowSet := .ofList (engine.scan suffix).kept

theorem makerScan_eq (engine : Engine) (suffix : Value) :
    engine.makerScan suffix =
      ⟨.ok (engine.rowsByMaker suffix),
        [.makerScan suffix (engine.scan suffix).tested.size (engine.rowsByMaker suffix).size]⟩ :=
  rfl

/-- The row that an entry of the primary index stands for. -/
def rowOfEntry (entry : (String × String) × String) : Row := ⟨entry.1.1, entry.1.2, entry.2⟩

namespace Scan

/-- Every remembered answer is the answer of the test. -/
def Sound (suffix : Value) (scan : Scan) : Prop :=
  ∀ maker answer, scan.tested.get? maker = some answer → answer = makerMatches suffix maker

theorem sound_start (suffix : Value) : Sound suffix ⟨.empty, []⟩ := by
  intro maker answer h
  rw [Index.get?_empty] at h
  cases h

variable {suffix : Value} {scan : Scan}

/-- The answer that a step uses, remembered or fresh, is the answer of the test. -/
theorem Sound.answer (h : scan.Sound suffix) (maker : String) :
    (scan.tested.get? maker).getD (makerMatches suffix maker) = makerMatches suffix maker := by
  cases hTested : scan.tested.get? maker with
  | none => rfl
  | some answer => exact h maker answer hTested

theorem Sound.step (h : scan.Sound suffix) (entry : (String × String) × String) :
    (scan.step suffix entry).Sound suffix := by
  obtain ⟨⟨maker, flavor⟩, baseFlavor⟩ := entry
  intro other answer hOther
  simp only [Scan.step, h.answer] at hOther
  by_cases hMaker : other = maker
  · subst hMaker
    rw [Index.put, Index.get?_alter_self] at hOther
    exact (Option.some.inj hOther).symm
  · rw [Index.put, Index.get?_alter_of_ne _ _ hMaker] at hOther
    exact h other answer hOther

theorem Sound.kept_step (h : scan.Sound suffix) (entry : (String × String) × String) :
    (scan.step suffix entry).kept =
      scan.kept ++ if makerMatches suffix entry.1.1 then [rowOfEntry entry] else [] := by
  obtain ⟨⟨maker, flavor⟩, baseFlavor⟩ := entry
  simp only [Scan.step, h.answer, rowOfEntry]
  by_cases hMatch : makerMatches suffix maker <;> simp [hMatch]

/-- A run of steps keeps the entries whose maker passes the test. -/
theorem Sound.kept_foldl (h : scan.Sound suffix) (entries : List ((String × String) × String)) :
    (entries.foldl (Scan.step suffix) scan).kept =
      scan.kept ++ (entries.filter fun entry => makerMatches suffix entry.1.1).map rowOfEntry := by
  induction entries generalizing scan with
  | nil => simp
  | cons entry rest ih =>
      rw [List.foldl_cons, ih (h.step entry), h.kept_step, List.append_assoc]
      by_cases hMatch : makerMatches suffix entry.1.1 <;> simp [hMatch]

end Scan

theorem kept_scan (engine : Engine) (suffix : Value) :
    (engine.scan suffix).kept =
      (engine.indexes.primary.entries.filter fun entry =>
        makerMatches suffix entry.1.1).map rowOfEntry := by
  rw [scan, (Scan.sound_start suffix).kept_foldl, List.nil_append]

/-- A scan finds the last row of each product whose maker passes the test. -/
theorem mem_rowsByMaker {rows : List Row} {suffix : Value} {row : Row} :
    row ∈ (holding rows).rowsByMaker suffix ↔
      makerMatches suffix row.maker = true ∧ row.IsLast rows := by
  rw [rowsByMaker, RowSet.mem_ofList, kept_scan, List.mem_map]
  constructor
  · intro h
    obtain ⟨⟨⟨maker, flavor⟩, baseFlavor⟩, hEntry, rfl⟩ := h
    obtain ⟨hMem, hMatch⟩ := List.mem_filter.mp hEntry
    exact ⟨hMatch, Indexes.mem_entries_primary_iff.mp hMem⟩
  · intro h
    obtain ⟨hMatch, hLast⟩ := h
    have hMem : ((row.maker, row.flavor), row.baseFlavor) ∈
        (holding rows).indexes.primary.entries := Indexes.mem_entries_primary_iff.mpr hLast
    exact ⟨_, List.mem_filter.mpr ⟨hMem, hMatch⟩, rfl⟩

end FlavorTable.Engine
