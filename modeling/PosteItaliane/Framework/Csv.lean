import Mathlib.Data.List.Basic

/-!
# Tables as text

A table is a list of rows, a row a list of cells. A separator stands between the cells of a row
and a terminator behind each row. A table none of whose cells contains either of them is read
back from its text.
-/

namespace Framework.Csv

variable {α : Type*}

/-- The text of a row, with its terminator. -/
def row (sep term : α) (cells : List (List α)) : List α := [sep].intercalate cells ++ [term]

def text (sep term : α) (table : List (List (List α))) : List α := table.flatMap (row sep term)

/-- The cells of a text. What stands behind the last terminator is no row. -/
def cells [BEq α] (sep term : α) (s : List α) : List (List (List α)) :=
  (s.splitOn term).dropLast.map fun line => line.splitOn sep

@[simp] theorem text_cons (sep term : α) (first : List (List α)) (table : List (List (List α))) :
    text sep term (first :: table) = row sep term first ++ text sep term table := rfl

@[simp] theorem text_nil (sep term : α) : text sep term [] = [] := rfl

theorem text_append (sep term : α) (table others : List (List (List α))) :
    text sep term (table ++ others) = text sep term table ++ text sep term others :=
  List.flatMap_append

/-- A row with a cell, and none that contains the separator or the terminator. -/
def PlainRow (sep term : α) (line : List (List α)) : Prop :=
  line ≠ [] ∧ ∀ cell ∈ line, sep ∉ cell ∧ term ∉ cell

theorem notMem_intercalate {sep term : α} (hne : term ≠ sep) {line : List (List α)}
    (h : ∀ cell ∈ line, term ∉ cell) : term ∉ [sep].intercalate line := by
  induction line with
  | nil => simp
  | cons cell line ih =>
    have hcell := h cell List.mem_cons_self
    have hrest := ih fun other hother => h other (List.mem_cons_of_mem cell hother)
    cases line with
    | nil => simpa using hcell
    | cons next line =>
      rw [List.intercalate_cons_cons, List.mem_append, List.mem_append, List.mem_singleton]
      rintro ((hmem | hmem) | hmem)
      · exact hcell hmem
      · exact hne hmem
      · exact hrest hmem

theorem cells_text [BEq α] [LawfulBEq α] {sep term : α} (hne : term ≠ sep)
    {table : List (List (List α))} (h : ∀ line ∈ table, PlainRow sep term line) :
    cells sep term (text sep term table) = table := by
  induction table with
  | nil => rfl
  | cons line table ih =>
    obtain ⟨hline, hcells⟩ := h line List.mem_cons_self
    have hrest := ih fun l hl => h l (List.mem_cons_of_mem line hl)
    have hterm := notMem_intercalate hne fun cell hcell => (hcells cell hcell).2
    have hsplit : line = ([sep].intercalate line).splitOn sep :=
      (List.splitOn_intercalate sep (fun cell hcell => (hcells cell hcell).1) hline).symm
    rw [cells] at hrest
    rw [cells, text_cons, row, List.append_assoc, List.singleton_append,
      List.splitOn_append_cons_self_of_not_mem hterm,
      List.dropLast_cons_of_ne_nil (List.splitOn_ne_nil _ _), List.map_cons, hrest, ← hsplit]

end Framework.Csv
