/-!
# Rows

The table relates makers, the flavors they sell, and the base that each
flavor is made of. A `Row` is one line of it. The column names form a row of
their own, `Row.header`, because they are written and measured like one.

The same row is also seen as the list of its three fields in column order.
Text formats and comparisons go through that view.

## Main results

* `ofFields?_fields`, `fields_injective` — the list of fields determines the
  row, and three fields are exactly what makes one.
-/

namespace FlavorTable

structure Row where
  maker : String
  flavor : String
  baseFlavor : String
  deriving DecidableEq, Repr

namespace Row

def header : Row := ⟨"Maker", "Flavor", "BaseFlavor"⟩

/-- The fields of a row in column order. -/
def fields (row : Row) : List String := [row.maker, row.flavor, row.baseFlavor]

/-- The row with the given fields; there must be three of them. -/
def ofFields? : List String → Option Row
  | [maker, flavor, baseFlavor] => some ⟨maker, flavor, baseFlavor⟩
  | _ => none

@[simp] theorem length_fields (row : Row) : row.fields.length = 3 := rfl

@[simp] theorem ofFields?_fields (row : Row) : ofFields? row.fields = some row := rfl

theorem ofFields?_eq_some_iff {fields : List String} {row : Row} :
    ofFields? fields = some row ↔ fields = row.fields := by
  constructor
  · intro h
    match fields with
    | [maker, flavor, baseFlavor] =>
        have hRow : (⟨maker, flavor, baseFlavor⟩ : Row) = row := Option.some.inj h
        subst hRow
        rfl
    | [] | [_] | [_, _] | _ :: _ :: _ :: _ :: _ => simp [ofFields?] at h
  · rintro rfl
    rfl

theorem exists_eq_fields_iff {fields : List String} :
    (∃ row : Row, fields = row.fields) ↔ fields.length = 3 := by
  constructor
  · rintro ⟨row, rfl⟩
    rfl
  · intro h
    match fields with
    | [maker, flavor, baseFlavor] => exact ⟨⟨maker, flavor, baseFlavor⟩, rfl⟩
    | [] | [_] | [_, _] | _ :: _ :: _ :: _ :: _ => simp at h

theorem ofFields?_eq_none_iff {fields : List String} :
    ofFields? fields = none ↔ fields.length ≠ 3 := by
  rw [Option.eq_none_iff_forall_ne_some, ne_eq, ← exists_eq_fields_iff, not_exists]
  exact forall_congr' fun row => not_congr ofFields?_eq_some_iff

theorem fields_injective {a b : Row} (h : a.fields = b.fields) : a = b := by
  simpa using congrArg ofFields? h

/-- What a row is looked up by when it has to be the only one of its kind. -/
def product (row : Row) : String × String := (row.maker, row.flavor)

end Row

end FlavorTable
