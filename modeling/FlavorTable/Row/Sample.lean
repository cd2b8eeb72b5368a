import FlavorTable.Row.Basic

/-!
# The sample table

Twelve rows to try a query on. No maker sells a flavor twice, two makers end
in the word `Creamery`, and of the four rows made of `Vanilla` two are sold
under that name.
-/

namespace FlavorTable.Row

/-- The rows of the sample table, in the order in which they were entered. -/
def sample : List Row :=
  [⟨"Haagen-Dazs", "Cherry Vanilla", "Vanilla"⟩,
   ⟨"Cold Stone Creamery", "Coffee", "Misc"⟩,
   ⟨"Cold Stone Creamery", "Mint", "Misc"⟩,
   ⟨"Baskin-Robbins", "Vanilla", "Vanilla"⟩,
   ⟨"Graeters", "Cinnamon", "Cinnamon"⟩,
   ⟨"Haagen-Dazs", "Chocolate", "Chocolate"⟩,
   ⟨"Marble Slab Creamery", "Cinnamon", "Cinnamon"⟩,
   ⟨"Cold Stone Creamery", "French Vanilla", "Vanilla"⟩,
   ⟨"Haagen-Dazs", "Pistachio", "Misc"⟩,
   ⟨"Marble Slab Creamery", "Vanilla", "Vanilla"⟩,
   ⟨"Haagen-Dazs", "Chocolate Sea Salt", "Chocolate"⟩,
   ⟨"Baskin-Robbins", "Chocolate Almond", "Chocolate"⟩]

end FlavorTable.Row
