import Std.Data.ExtTreeMap

/-!
# Cells

A memory of bytes of any size, all zero at first.  It is kept in pages, and only those
that have been written to are there, so a large memory costs no more than its use.
-/

namespace ReplicaStore.Stream

/-- The number of cells of a page. -/
def pageSize : Nat := 4096

/-- A byte of a page.  A page may be shorter than its cells; those beyond its end are
zero. -/
def slot (page : Array UInt8) (index : Nat) : UInt8 :=
  page.getD index 0

/-- Stores a byte in a page, adding zeros in front of it where they are missing. -/
def setSlot (page : Array UInt8) (index : Nat) (byte : UInt8) : Array UInt8 :=
  if index < page.size then page.setIfInBounds index byte
  else (page ++ Array.replicate (index - page.size) 0).push byte

@[simp] theorem slot_setSlot (page : Array UInt8) (index other : Nat) (byte : UInt8) :
    slot (setSlot page index byte) other = if other = index then byte else slot page other := by
  simp only [slot, setSlot, Array.getD_eq_getD_getElem?]
  split
  · next inside =>
      by_cases same : other = index
      · subst same; simp [inside]
      · simp [same, Array.getElem?_setIfInBounds_ne (Ne.symm same)]
  · next outside =>
      have grown : (page ++ Array.replicate (index - page.size) (0 : UInt8)).size = index := by
        simp; omega
      by_cases same : other = index
      · subst same; rw [Array.getElem?_push, grown]; simp
      · simp only [Array.getElem?_push, grown, same, if_false]
        by_cases inside : other < page.size
        · simp [Array.getElem?_append_left inside]
        · simp only [Array.getElem?_append_right (Nat.le_of_not_lt inside),
            Array.getElem?_replicate, Array.getElem?_eq_none (Nat.le_of_not_lt inside)]
          split <;> rfl

/-- Cells for bytes, numbered from zero. -/
structure Cells where
  pages : Std.ExtTreeMap Nat (Array UInt8) := ∅
  deriving Repr

namespace Cells

/-- The page with a number. -/
def page (cells : Cells) (number : Nat) : Array UInt8 :=
  cells.pages[number]?.getD #[]

/-- The byte in a cell. -/
def get (cells : Cells) (index : Nat) : UInt8 :=
  slot (cells.page (index / pageSize)) (index % pageSize)

/-- Stores a byte in a cell. -/
def set (cells : Cells) (index : Nat) (byte : UInt8) : Cells where
  pages := cells.pages.alter (index / pageSize) fun page =>
    some (setSlot (page.getD #[]) (index % pageSize) byte)

@[simp] theorem get_empty (index : Nat) : get {} index = 0 := by
  simp [get, page, slot]

theorem page_set (cells : Cells) (index number : Nat) (byte : UInt8) :
    (cells.set index byte).page number =
      if number = index / pageSize then setSlot (cells.page number) (index % pageSize) byte
      else cells.page number := by
  simp only [page, set, Std.ExtTreeMap.getElem?_alter]
  by_cases same : number = index / pageSize
  · subst same; simp
  · have apart : compare (index / pageSize) number ≠ .eq := by
      simpa using Ne.symm same
    simp [same, apart]

@[simp] theorem get_set (cells : Cells) (index other : Nat) (byte : UInt8) :
    (cells.set index byte).get other = if other = index then byte else cells.get other := by
  simp only [get, page_set]
  by_cases same : other / pageSize = index / pageSize
  · have exact : other % pageSize = index % pageSize ↔ other = index := by
      simp only [pageSize] at *
      omega
    simp only [same, if_true, slot_setSlot, exact]
  · have apart : other ≠ index := by
      rintro rfl
      exact same rfl
    simp [same, apart]

end Cells
end ReplicaStore.Stream
