import Mathlib.Data.List.Dedup
import Mathlib.Data.List.Sort
import HybridPqc.Lib.Decimals

/-!
# CSV files and pandas

`main` of `analyze_endurance_log.py` reads its CSV file back with pandas, which need not be installed. The
functions of pandas that it calls are a parameter of the model, and what the library documents of them are
the laws.
-/

open PyStr (lit)

namespace HybridPqc

/-- A CSV file: the names of its columns, and its rows. -/
structure CsvFile where
  header : List PyStr
  rows : List (List PyStr)

namespace CsvFile

/-- The fields at a position of the header. -/
def cells (csv : CsvFile) (i : Nat) : List PyStr := csv.rows.map fun row => row.getD i []

/-- The columns have different names, and every row has a field for each. -/
structure Regular (csv : CsvFile) : Prop where
  header_ne_nil : csv.header ≠ []
  nodup_header : csv.header.Nodup
  length_row : ∀ row ∈ csv.rows, row.length = csv.header.length

instance (csv : CsvFile) : Decidable csv.Regular :=
  decidable_of_iff
    (csv.header ≠ [] ∧ csv.header.Nodup ∧ ∀ row ∈ csv.rows, row.length = csv.header.length)
    ⟨fun ⟨h₁, h₂, h₃⟩ => ⟨h₁, h₂, h₃⟩, fun h => ⟨h.header_ne_nil, h.nodup_header, h.length_row⟩⟩

/-- Where a name first stands in the header. -/
def position (csv : CsvFile) (name : PyStr) : Option Nat :=
  csv.header.findIdx? fun field => decide (field = name)

/-- The rows by their field at a position, in the order of the numbers that the fields hold. -/
def groups (csv : CsvFile) (i : Nat) : List (PyStr × CsvFile) :=
  ((csv.cells i).dedup.insertionSort fun a b => PyStr.ofDecimal a ≤ PyStr.ofDecimal b).map fun key =>
    (key, ⟨csv.header, csv.rows.filter fun row => decide (row.getD i [] = key)⟩)

end CsvFile

/-- How `main` ends unless it returns. -/
inductive MainError where
  | indexError
  | typeError
  | valueError
  | keyError (column : PyStr)
  | importError
  /-- An exception of pandas. -/
  | raised (exception : PyStr)
  | systemExit (code : Nat)
  deriving DecidableEq

/-- The functions of pandas that `main` calls. -/
structure Pandas where
  /-- `DataFrame`. -/
  Frame : Type
  /-- `Series`, as a column. -/
  Series : Type
  /-- `Series`, as the outcome of a comparison. -/
  Mask : Type
  /-- `pd.read_csv`. -/
  readCsv : CsvFile → Except MainError Frame
  /-- `len(df)`. -/
  len : Frame → Nat
  /-- `df[name]`; `none` for a `KeyError`. -/
  column : Frame → PyStr → Option Series
  /-- `column == text`. -/
  equals : Series → PyStr → Mask
  /-- `df[mask]`. -/
  select : Frame → Mask → Frame
  /-- What `df.groupby(name)` yields, each key as it is printed; `none` for a `KeyError`. -/
  groupby : Frame → PyStr → Option (List (PyStr × Frame))
  /-- `min(column)` and `max(column)`, as they are printed. -/
  range : Series → Except MainError (PyStr × PyStr)

namespace Pandas

/-- The frame is what is read from a regular file. -/
def Reads (P : Pandas) (csv : CsvFile) (df : P.Frame) : Prop := csv.Regular ∧ P.readCsv csv = .ok df

/-- The documented behaviour of the functions on a regular file. -/
structure Laws (P : Pandas) : Prop where
  /-- A regular file is read. -/
  exists_reads : ∀ csv, csv.Regular → ∃ df, P.Reads csv df
  /-- There is a row for each of the file, -/
  len_reads : ∀ csv df, P.Reads csv df → P.len df = csv.rows.length
  /-- and a column for each name in the header. -/
  column_reads : ∀ csv df name, P.Reads csv df → ((P.column df name).isSome ↔ name ∈ csv.header)
  /-- Only rows with the text in the column are equal to it; a number or a missing value is no text. -/
  len_select_le : ∀ csv df i name column text, P.Reads csv df → csv.header[i]? = some name →
    P.column df name = some column →
      P.len (P.select df (P.equals column text)) ≤ (csv.cells i).count text
  /-- A column of numbers groups the rows by them, each group with all the columns. -/
  groupby_reads : ∀ csv df i name, P.Reads csv df → csv.header[i]? = some name →
    (∀ cell ∈ csv.cells i, ∃ n, cell = PyStr.decimal n) →
      ∃ groups, P.groupby df name = some groups ∧
        (groups.map fun g => (g.1, P.len g.2)).Perm
          ((csv.cells i).dedup.map fun key => (key, (csv.cells i).count key)) ∧
        ∀ g ∈ groups, ∀ name, (P.column g.2 name).isSome ↔ name ∈ csv.header

/-- The functions on the texts of the fields. -/
@[reducible] def ofTexts : Pandas where
  Frame := CsvFile
  Series := List PyStr
  Mask := List Bool
  readCsv csv := if csv.Regular then .ok csv else .error (.raised (lit "ParserError"))
  len csv := csv.rows.length
  column csv name := (csv.position name).map csv.cells
  equals column text := column.map fun cell => decide (cell = text)
  select csv mask := ⟨csv.header, ((csv.rows.zip mask).filter Prod.snd).map Prod.fst⟩
  groupby csv name := (csv.position name).map csv.groups
  range column :=
    match column.insertionSort (· ≤ ·) with
    | [] => .error (.raised (lit "ValueError"))
    | least :: rest => .ok (least, rest.getLastD least)

end Pandas

end HybridPqc
