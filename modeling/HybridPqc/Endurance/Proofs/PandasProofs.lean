import HybridPqc.Endurance.Pandas

/-!
# Proofs: the laws of pandas

The laws hold of the functions on texts.
-/

namespace HybridPqc

namespace CsvFile

variable {csv : CsvFile} {name : PyStr} {i : Nat}

/-- A name stands at one position of a regular header. -/
theorem position_eq (hreg : csv.Regular) (hi : csv.header[i]? = some name) : csv.position name = some i := by
  rcases List.getElem?_eq_some_iff.mp hi with ⟨hlt, rfl⟩
  refine List.findIdx?_eq_some_iff_getElem.mpr ⟨hlt, decide_eq_true rfl, ?_⟩
  intro j hj heq
  have hsame := hreg.nodup_header.getElem_inj_iff.mp (of_decide_eq_true heq)
  omega

theorem isSome_position : (csv.position name).isSome ↔ name ∈ csv.header := by
  unfold position
  rw [List.findIdx?_isSome, List.any_eq_true]
  simp

theorem length_filter_cells (csv : CsvFile) (i : Nat) (text : PyStr) :
    (csv.rows.filter fun row => decide (row.getD i [] = text)).length = (csv.cells i).count text := by
  rw [cells, List.count_eq_countP, List.countP_map, List.countP_eq_length_filter]
  simp only [Function.comp_def, beq_eq_decide]

/-- There is one group for each field at the position, with the rows that hold it. -/
theorem groups_perm (csv : CsvFile) (i : Nat) :
    ((csv.groups i).map fun g => (g.1, g.2.rows.length)).Perm
      ((csv.cells i).dedup.map fun key => (key, (csv.cells i).count key)) := by
  unfold groups
  rw [List.map_map]
  have hcount : ((fun g : PyStr × CsvFile => (g.1, g.2.rows.length)) ∘ fun key =>
      (key, ⟨csv.header, csv.rows.filter fun row => decide (row.getD i [] = key)⟩)) =
        fun key => (key, (csv.cells i).count key) := by
    funext key
    exact congrArg (Prod.mk key) (length_filter_cells csv i key)
  rw [hcount]
  exact (List.perm_insertionSort _ _).map _

theorem header_groups {g : PyStr × CsvFile} (hg : g ∈ csv.groups i) : g.2.header = csv.header := by
  rcases List.mem_map.mp hg with ⟨key, -, rfl⟩
  rfl

end CsvFile

namespace Pandas

variable {csv : CsvFile} {name : PyStr}

theorem reads_ofTexts {df : CsvFile} : ofTexts.Reads csv df ↔ csv.Regular ∧ df = csv := by
  have hread : ofTexts.readCsv csv =
      if csv.Regular then .ok csv else .error (.raised (PyStr.lit "ParserError")) := rfl
  unfold Reads
  rw [hread]
  constructor
  · rintro ⟨hreg, h⟩
    rw [if_pos hreg] at h
    exact ⟨hreg, (Except.ok.inj h).symm⟩
  · rintro ⟨hreg, rfl⟩
    exact ⟨hreg, if_pos hreg⟩

theorem isSome_column_ofTexts : (ofTexts.column csv name).isSome ↔ name ∈ csv.header := by
  have hcolumn : ofTexts.column csv name = (csv.position name).map csv.cells := rfl
  rw [hcolumn, Option.isSome_map, CsvFile.isSome_position]

theorem len_select_ofTexts (csv : CsvFile) (i : Nat) (text : PyStr) :
    ofTexts.len (ofTexts.select csv (ofTexts.equals (csv.cells i) text)) = (csv.cells i).count text := by
  have hselect : ofTexts.len (ofTexts.select csv (ofTexts.equals (csv.cells i) text)) =
      (((csv.rows.zip ((csv.cells i).map fun cell => decide (cell = text))).filter Prod.snd).map
        Prod.fst).length := rfl
  have hzip : csv.rows.zip ((csv.cells i).map fun cell => decide (cell = text)) =
      csv.rows.map fun row => (row, decide (row.getD i [] = text)) := by
    rw [CsvFile.cells, List.map_map, List.map_prod_left_eq_zip]
    rfl
  rw [hselect, hzip, List.length_map, List.filter_map, List.length_map, ← CsvFile.length_filter_cells]
  rfl

theorem laws_ofTexts : ofTexts.Laws where
  exists_reads csv hreg := ⟨csv, reads_ofTexts.mpr ⟨hreg, rfl⟩⟩
  len_reads := by
    intro csv df hread
    rcases reads_ofTexts.mp hread with ⟨-, rfl⟩
    rfl
  column_reads := by
    intro csv df name hread
    rcases reads_ofTexts.mp hread with ⟨-, rfl⟩
    exact isSome_column_ofTexts
  len_select_le := by
    intro csv df i name column text hread hi hcolumn
    rcases reads_ofTexts.mp hread with ⟨hreg, rfl⟩
    have hcells : ofTexts.column df name = some (df.cells i) :=
      congrArg (Option.map df.cells) (CsvFile.position_eq hreg hi)
    have hcolumn' : column = df.cells i := Option.some.inj (hcolumn.symm.trans hcells)
    rw [hcolumn']
    exact (len_select_ofTexts df i text).le
  groupby_reads := by
    intro csv df i name hread hi _
    rcases reads_ofTexts.mp hread with ⟨hreg, rfl⟩
    have hgroups : ofTexts.groupby df name = some (df.groups i) :=
      congrArg (Option.map df.groups) (CsvFile.position_eq hreg hi)
    refine ⟨df.groups i, hgroups, df.groups_perm i, ?_⟩
    intro g hg name
    rw [← CsvFile.header_groups hg]
    exact isSome_column_ofTexts

end Pandas

end HybridPqc
