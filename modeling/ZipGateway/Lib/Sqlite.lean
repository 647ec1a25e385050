import ZipGateway.Lib.Memory

/-!
# Tables of an SQLite database

A table is the list of its rows in the order of the row ids, and a row has one value for each column.
The parameters that are bound to an `INSERT` of a whole row are such a row as well; they stay bound
when the statement is reset. Integers go in and out as 32 bits.
-/

namespace Sqlite

inductive Value where
  | null
  | int (i : Int)
  | blob (bytes : Bytes)
deriving DecidableEq, Repr

abbrev Row (n : Nat) := Fin n → Value

variable {n : Nat}

def Row.null : Row n :=
  fun _ => .null

def bindInt (row : Row n) (col : Fin n) (x : UInt32) : Row n :=
  Function.update row col (.int x.toInt32.toInt)

/-- `sqlite3_bind_blob`; a null pointer binds `NULL`, which reads back as the empty blob. -/
def bindBlob (row : Row n) (col : Fin n) (bytes : Bytes) : Row n :=
  Function.update row col (.blob bytes)

def columnInt (row : Row n) (col : Fin n) : UInt32 :=
  match row col with
  | .int i => (Int32.ofInt i).toUInt32
  | _ => 0

def columnBlob (row : Row n) (col : Fin n) : Bytes :=
  match row col with
  | .blob bytes => bytes
  | _ => []

section Columns

variable (row : Row n) {col other : Fin n} (x : UInt32) (bytes : Bytes)

@[simp]
theorem columnInt_bindInt : columnInt (bindInt row col x) col = x := by
  simp [columnInt, bindInt]

@[simp]
theorem columnBlob_bindBlob : columnBlob (bindBlob row col bytes) col = bytes := by
  simp [columnBlob, bindBlob]

theorem columnInt_bindInt_of_ne (h : other ≠ col) : columnInt (bindInt row col x) other = columnInt row other := by
  simp only [columnInt, bindInt, Function.update_of_ne h]

theorem columnInt_bindBlob_of_ne (h : other ≠ col) :
    columnInt (bindBlob row col bytes) other = columnInt row other := by
  simp only [columnInt, bindBlob, Function.update_of_ne h]

theorem columnBlob_bindInt_of_ne (h : other ≠ col) : columnBlob (bindInt row col x) other = columnBlob row other := by
  simp only [columnBlob, bindInt, Function.update_of_ne h]

theorem columnBlob_bindBlob_of_ne (h : other ≠ col) :
    columnBlob (bindBlob row col bytes) other = columnBlob row other := by
  simp only [columnBlob, bindBlob, Function.update_of_ne h]

end Columns

def hasKey (col : Fin n) (x : UInt32) (row : Row n) : Bool :=
  row col = .int x.toInt32.toInt

def selectWhere (col : Fin n) (x : UInt32) (table : List (Row n)) : List (Row n) :=
  table.filter (hasKey col x)

def deleteWhere (col : Fin n) (x : UInt32) (table : List (Row n)) : List (Row n) :=
  table.filter fun row => !hasKey col x row

def insertInto (row : Row n) (table : List (Row n)) : List (Row n) :=
  table ++ [row]

def insertKeyed (col : Fin n) (row : Row n) (table : List (Row n)) : List (Row n) :=
  if table.any fun other => other col = row col then table else insertInto row table

section Tables

variable {col : Fin n} {x y : UInt32} {row : Row n} {table rows : List (Row n)}

theorem hasKey_of_ne (h : y ≠ x) (hx : hasKey col x row = true) : hasKey col y row = false := by
  simp only [hasKey, decide_eq_true_eq, decide_eq_false_iff_not] at hx ⊢
  intro hy
  rw [hx, Value.int.injEq, Int32.toInt_inj] at hy
  have hxy : x.toInt32.toUInt32 = y.toInt32.toUInt32 := congrArg Int32.toUInt32 hy
  rw [UInt32.toUInt32_toInt32, UInt32.toUInt32_toInt32] at hxy
  exact h hxy.symm

@[simp]
theorem hasKey_bindInt : hasKey col x (bindInt row col x) = true := by
  simp [hasKey, bindInt]

theorem hasKey_bindInt_of_ne {other : Fin n} (h : col ≠ other) :
    hasKey col x (bindInt row other y) = hasKey col x row := by
  simp only [hasKey, bindInt, Function.update_of_ne h]

theorem hasKey_bindBlob_of_ne {other : Fin n} (bytes : Bytes) (h : col ≠ other) :
    hasKey col x (bindBlob row other bytes) = hasKey col x row := by
  simp only [hasKey, bindBlob, Function.update_of_ne h]

theorem selectWhere_append : selectWhere col x (table ++ rows) = selectWhere col x table ++ selectWhere col x rows :=
  List.filter_append ..

theorem selectWhere_eq_nil (h : ∀ row ∈ rows, hasKey col x row = false) : selectWhere col x rows = [] := by
  rw [selectWhere, List.filter_eq_nil_iff]
  intro row hrow
  simp [h row hrow]

theorem selectWhere_eq_self (h : ∀ row ∈ rows, hasKey col x row = true) : selectWhere col x rows = rows :=
  List.filter_eq_self.mpr h

@[simp]
theorem selectWhere_deleteWhere_self : selectWhere col x (deleteWhere col x table) = [] := by
  apply selectWhere_eq_nil
  intro row hrow
  simpa using (List.mem_filter.mp hrow).2

theorem selectWhere_deleteWhere_of_ne (h : y ≠ x) :
    selectWhere col y (deleteWhere col x table) = selectWhere col y table := by
  rw [selectWhere, deleteWhere, List.filter_filter]
  apply List.filter_congr
  intro row _
  cases hy : hasKey col y row with
  | false => simp
  | true => simp [hasKey_of_ne h.symm hy]

theorem insertKeyed_of_fresh (hrow : hasKey col x row = true) (h : selectWhere col x table = []) :
    insertKeyed col row table = insertInto row table := by
  rw [insertKeyed, if_neg]
  simp only [List.any_eq_true, decide_eq_true_eq, not_exists, not_and]
  intro other hother heq
  have hkey : hasKey col x other = true := by
    simp only [hasKey, decide_eq_true_eq] at hrow ⊢
    rw [heq, hrow]
  have hmem : other ∈ selectWhere col x table := List.mem_filter.mpr ⟨hother, hkey⟩
  rw [h] at hmem
  exact List.not_mem_nil hmem

end Tables

end Sqlite
