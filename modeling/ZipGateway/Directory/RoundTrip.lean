import Mathlib.Data.Fintype.Card
import ZipGateway.Directory.DataStore

/-!
# What is written is read back

A node that was written is read back with all its columns and endpoints, and the rows of the other
nodes stay. Only the count of endpoints is not stored; it is counted again. The associations come back
in order, in the blocks that are allocated for them.
-/

namespace ZipGateway.Directory

open Sqlite

/-! ### Columns -/

variable (db : Database) (nodeid : NodeId) (n : NodeEntry)

section Columns

attribute [local simp] columnInt_bindInt_of_ne columnInt_bindBlob_of_ne columnBlob_bindInt_of_ne
  columnBlob_bindBlob_of_ne

theorem readNode_bindNode (row : Row 19) (n : NodeHeader) : readNode (bindNode row n) = { n with nEndpoints := 0 } := by
  simp [readNode, bindNode, ntColNodeid, ntColWakeUpInterval, ntColLastAwake, ntColLastUpdate,
    ntColSecurityFlags, ntColMode, ntColState, ntColManufacturerId, ntColProductType, ntColProductId,
    ntColNodeType, ntColNAggEndpoints, ntColName, ntColDsk, ntColNodeVersionCapAndZwaveSw,
    ntColProbeFlags, ntColPropertiesFlags, ntColCcVersions, ntColNodeIsZwsProbed]

theorem readEndpoint_bindEndpoint (row : Row 9) (nodeid : NodeId) (e : EpEntry) :
    readEndpoint (bindEndpoint row nodeid e) = e := by
  simp [readEndpoint, bindEndpoint, etColEndpointid, etColNodeid, etColInfo, etColAggr, etColName,
    etColLocation, etColState, etColInstallerIconId, etColUserIconId]

theorem hasKey_bindNode (row : Row 19) (n : NodeHeader) :
    hasKey ntColNodeid n.nodeid.toUInt32 (bindNode row n) = true := by
  simp [bindNode, hasKey_bindInt_of_ne, hasKey_bindBlob_of_ne, ntColNodeid, ntColWakeUpInterval,
    ntColLastAwake, ntColLastUpdate, ntColSecurityFlags, ntColMode, ntColState, ntColManufacturerId,
    ntColProductType, ntColProductId, ntColNodeType, ntColNAggEndpoints, ntColName, ntColDsk,
    ntColNodeVersionCapAndZwaveSw, ntColProbeFlags, ntColPropertiesFlags, ntColCcVersions,
    ntColNodeIsZwsProbed]

theorem hasKey_bindEndpoint (row : Row 9) (nodeid : NodeId) (e : EpEntry) :
    hasKey etColNodeid nodeid.toUInt32 (bindEndpoint row nodeid e) = true := by
  simp [bindEndpoint, hasKey_bindInt_of_ne, hasKey_bindBlob_of_ne, etColEndpointid, etColNodeid,
    etColInfo, etColAggr, etColName, etColLocation, etColState, etColInstallerIconId, etColUserIconId]

theorem typeOfCode_typeCode (type : IpAssoc.AssocType) : typeOfCode (typeCode type) = type := by
  cases type <;> rfl

theorem length_ipBytes (ip : IpAddr) : (ipBytes ip).length = 16 := by
  simp [ipBytes]

theorem ipOfBytes_ipBytes (ip : IpAddr) : ipOfBytes (ipBytes ip) = ip := by
  have hlt : ip.toNat < 256 ^ 16 :=
    Nat.lt_of_lt_of_le ip.isLt (by decide)
  rw [ipOfBytes, ipBytes, List.reverse_reverse, Endian.ofBytes_toBytes, Nat.mod_eq_of_lt hlt]
  exact BitVec.ofNat_toNat ..

theorem readAssociation_bindAssociation (row : Row 11) (a old : IpAssoc.Assoc) :
    readAssociation old (bindAssociation row a) = a := by
  simp [readAssociation, bindAssociation, ipaColVirtualId, ipaColType, ipaColResourceIp,
    ipaColResourceEndpoint, ipaColResourcePort, ipaColVirtualEndpoint, ipaColGrouping,
    ipaColHanNodeid, ipaColHanEndpoint, ipaColWasDtls, ipaColMarkRemoval, typeOfCode_typeCode,
    length_ipBytes, ipOfBytes_ipBytes]

end Columns

/-! ### Nodes -/

theorem foldl_addRow (rows : List (Row 9)) (n : NodeEntry) : rows.foldl NodeEntry.addRow n = { n with
        endpoints := n.endpoints ++ rows.map readEndpoint
        nEndpoints := n.nEndpoints + UInt8.ofNat rows.length } := by
  induction rows generalizing n with
  | nil => simp
  | cons row rows ih =>
    rw [List.foldl_cons, ih, NodeEntry.addRow]
    have hcount : n.nEndpoints + 1 + UInt8.ofNat rows.length = n.nEndpoints + UInt8.ofNat (rows.length + 1) := by
      rw [UInt8.ofNat_add, UInt8.add_assoc, UInt8.add_comm 1]
      rfl
    simp [hcount]

def endpointRows (nodeid : NodeId) : Row 9 → List EpEntry → List (Row 9)
  | _, [] => []
  | row, e :: es =>
    bindEndpoint row nodeid e :: endpointRows nodeid (bindEndpoint row nodeid e) es

theorem hasKey_endpointRows (row : Row 9) (es : List EpEntry) :
    ∀ r ∈ endpointRows nodeid row es, hasKey etColNodeid nodeid.toUInt32 r = true := by
  induction es generalizing row with
  | nil => simp [endpointRows]
  | cons e es ih =>
    intro r hr
    rcases List.mem_cons.mp hr with rfl | hr
    · exact hasKey_bindEndpoint row nodeid e
    · exact ih _ r hr

theorem map_readEndpoint_endpointRows (row : Row 9) (es : List EpEntry) :
    (endpointRows nodeid row es).map readEndpoint = es := by
  induction es generalizing row with
  | nil => rfl
  | cons e es ih => rw [endpointRows, List.map_cons, ih, readEndpoint_bindEndpoint]

theorem foldl_insertEndpoint (es : List EpEntry) (db : Database) :
    (es.foldl (Database.insertEndpoint nodeid) db).endpoints = db.endpoints ++ endpointRows nodeid db.epInsert es ∧
      (es.foldl (Database.insertEndpoint nodeid) db).nodes = db.nodes ∧
      (es.foldl (Database.insertEndpoint nodeid) db).ipAssociation = db.ipAssociation := by
  induction es generalizing db with
  | nil => simp [endpointRows]
  | cons e es ih =>
    obtain ⟨heps, hnodes, hassoc⟩ := ih (db.insertEndpoint nodeid e)
    refine ⟨?_, hnodes, hassoc⟩
    rw [List.foldl_cons, heps]
    simp [Database.insertEndpoint, endpointRows, insertInto]

theorem nvmWrite_tables : (db.nvmWrite n).nodes =
        deleteWhere ntColNodeid n.nodeid.toUInt32 db.nodes ++ [bindNode db.nodeInsert n.toNodeHeader] ∧
      (db.nvmWrite n).endpoints = deleteWhere etColNodeid n.nodeid.toUInt32 db.endpoints ++
          endpointRows n.nodeid db.epInsert n.endpoints ∧
      (db.nvmWrite n).ipAssociation = db.ipAssociation := by
  obtain ⟨heps, hnodes, hassoc⟩ := foldl_insertEndpoint n.nodeid n.endpoints { db.nvmFree n.nodeid with
      nodeInsert := bindNode db.nodeInsert n.toNodeHeader
      nodes := insertKeyed ntColNodeid (bindNode db.nodeInsert n.toNodeHeader) (db.nvmFree n.nodeid).nodes }
  refine ⟨?_, heps, hassoc⟩
  refine hnodes.trans ?_
  exact insertKeyed_of_fresh (hasKey_bindNode db.nodeInsert n.toNodeHeader) selectWhere_deleteWhere_self

theorem read_nvmWrite_self : (db.nvmWrite n).read n.nodeid =
      some { n with nEndpoints := UInt8.ofNat n.endpoints.length } := by
  obtain ⟨hnodes, heps, -⟩ := nvmWrite_tables db n
  have hrow : selectWhere ntColNodeid n.nodeid.toUInt32 (db.nvmWrite n).nodes =
      [bindNode db.nodeInsert n.toNodeHeader] := by
    rw [hnodes, selectWhere_append, selectWhere_deleteWhere_self, List.nil_append]
    apply selectWhere_eq_self
    intro row hmem
    rw [List.mem_singleton.mp hmem]
    exact hasKey_bindNode ..
  have hrows : selectWhere etColNodeid n.nodeid.toUInt32 (db.nvmWrite n).endpoints =
      endpointRows n.nodeid db.epInsert n.endpoints := by
    rw [heps, selectWhere_append, selectWhere_deleteWhere_self, List.nil_append]
    exact selectWhere_eq_self (hasKey_endpointRows _ _ _)
  have hlength : (endpointRows n.nodeid db.epInsert n.endpoints).length = n.endpoints.length := by
    rw [← List.length_map readEndpoint, map_readEndpoint_endpointRows]
  rw [Database.read, hrow]
  simp only [hrows, foldl_addRow, readNode_bindNode, map_readEndpoint_endpointRows, hlength,
    List.nil_append, UInt8.zero_add]

theorem selectWhere_nvmWrite_of_ne {nodeid : NodeId} (h : nodeid ≠ n.nodeid) :
    selectWhere ntColNodeid nodeid.toUInt32 (db.nvmWrite n).nodes = selectWhere ntColNodeid nodeid.toUInt32 db.nodes ∧
      selectWhere etColNodeid nodeid.toUInt32 (db.nvmWrite n).endpoints =
        selectWhere etColNodeid nodeid.toUInt32 db.endpoints := by
  obtain ⟨hnodes, heps, -⟩ := nvmWrite_tables db n
  have hne : nodeid.toUInt32 ≠ n.nodeid.toUInt32 := by
    intro heq
    exact h (UInt16.toUInt32_inj.mp heq)
  constructor
  · have hnew : selectWhere ntColNodeid nodeid.toUInt32 [bindNode db.nodeInsert n.toNodeHeader] = [] := by
      apply selectWhere_eq_nil
      intro row hmem
      rw [List.mem_singleton.mp hmem]
      exact hasKey_of_ne hne (hasKey_bindNode ..)
    rw [hnodes, selectWhere_append, selectWhere_deleteWhere_of_ne hne, hnew, List.append_nil]
  · have hnew : selectWhere etColNodeid nodeid.toUInt32 (endpointRows n.nodeid db.epInsert n.endpoints) = [] := by
      apply selectWhere_eq_nil
      intro row hmem
      exact hasKey_of_ne hne (hasKey_endpointRows _ _ _ row hmem)
    rw [heps, selectWhere_append, selectWhere_deleteWhere_of_ne hne, hnew, List.append_nil]

theorem read_nvmWrite_of_ne {nodeid : NodeId} (h : nodeid ≠ n.nodeid) :
    (db.nvmWrite n).read nodeid = db.read nodeid := by
  obtain ⟨hnodes, heps⟩ := selectWhere_nvmWrite_of_ne db n h
  rw [Database.read, hnodes, heps]
  rfl

/-! ### Associations -/

def associationRows : Row 11 → List IpAssoc.Assoc → List (Row 11)
  | _, [] => []
  | row, a :: as => bindAssociation row a :: associationRows (bindAssociation row a) as

theorem ipAssociation_persistAssociations (table : List IpAssoc.Assoc) :
    (db.persistAssociations table).ipAssociation = associationRows Row.null table := by
  unfold Database.persistAssociations
  dsimp only
  generalize hbind : Row.null = row
  rw [← List.nil_append (associationRows row table)]
  clear hbind
  generalize ([] : List (Row 11)) = rows
  induction table generalizing rows row with
  | nil => simp [associationRows]
  | cons a as ih =>
    rw [List.foldl_cons, ih, insertInto, associationRows, List.append_assoc]
    rfl

/-- A table whose blocks are just those that are allocated. -/
structure Linked (s : IpAssoc.State) : Prop where
  nodup : s.table.Nodup
  allocated : ∀ i, s.allocated i = true ↔ i ∈ s.table

theorem membAlloc_isSome {s : IpAssoc.State} (h : Linked s) (hroom : s.table.length < 200) : ∃ i, i ∉ s.table ∧
      s.membAlloc = (some i, { s with allocated := Function.update s.allocated i true }) := by
  cases hfind : (List.finRange 200).find? fun i => !s.allocated i with
  | some i =>
    have hfree : s.allocated i = false := by
      simpa using List.find?_some hfind
    refine ⟨i, ?_, by rw [IpAssoc.State.membAlloc, hfind]⟩
    intro hmem
    rw [(h.allocated i).mpr hmem] at hfree
    cases hfree
  | none =>
    have hall : List.finRange 200 ⊆ s.table := by
      intro i hi
      have := List.find?_eq_none.mp hfind i hi
      exact (h.allocated i).mp (by simpa using this)
    have hlength := (List.subperm_of_subset (List.nodup_finRange 200) hall).length_le
    rw [List.length_finRange] at hlength
    omega

theorem Linked.link {s : IpAssoc.State} (h : Linked s) {i : IpAssoc.Block} (hi : i ∉ s.table) (a : IpAssoc.Assoc) :
    Linked (({ s with allocated := Function.update s.allocated i true }.withMem i a).withTable
      (s.table.erase i ++ [i])) where
  nodup := by
    change (s.table.erase i ++ [i]).Nodup
    rw [List.erase_of_not_mem hi, List.nodup_append]
    refine ⟨h.nodup, List.nodup_singleton i, ?_⟩
    intro j hj k hk hjk
    rw [hjk, List.mem_singleton.mp hk] at hj
    exact hi hj
  allocated := by
    intro j
    change Function.update s.allocated i true j = true ↔ j ∈ s.table.erase i ++ [i]
    rw [List.erase_of_not_mem hi, List.mem_append, List.mem_singleton]
    by_cases hj : j = i
    · simp [hj]
    · simp [hj, h.allocated j]

theorem unpersistRows_associationRows (as : List IpAssoc.Assoc) (row : Row 11) (s : IpAssoc.State)
    (h : Linked s) (hroom : s.table.length + as.length ≤ 200) :
    (unpersistRows s (associationRows row as)).table.map
        (unpersistRows s (associationRows row as)).mem = s.table.map s.mem ++ as := by
  induction as generalizing row s with
  | nil => simp [associationRows, unpersistRows]
  | cons a as ih =>
    rw [List.length_cons] at hroom
    obtain ⟨i, hi, halloc⟩ := membAlloc_isSome h (by omega)
    have hlength : (s.table.erase i ++ [i]).length + as.length ≤ 200 := by
      rw [List.erase_of_not_mem hi, List.length_append, List.length_singleton]
      omega
    have hstep := ih (bindAssociation row a) _ (h.link hi (readAssociation (s.mem i) (bindAssociation row a))) hlength
    have hkeep : (s.table.erase i ++ [i]).map
        (Function.update s.mem i (readAssociation (s.mem i) (bindAssociation row a))) = s.table.map s.mem ++ [a] := by
      rw [List.erase_of_not_mem hi, List.map_append, List.map_singleton, Function.update_self,
        readAssociation_bindAssociation]
      congr 1
      apply List.map_congr_left
      intro j hj
      rw [Function.update_of_ne]
      rintro rfl
      exact hi hj
    rw [associationRows, unpersistRows, halloc]
    refine hstep.trans ?_
    change (s.table.erase i ++ [i]).map
      (Function.update s.mem i (readAssociation (s.mem i) (bindAssociation row a))) ++ as = _
    rw [hkeep, List.append_assoc]
    rfl

theorem linked_ipAssocInit (s : IpAssoc.State) : Linked (ipAssocInit s) where
  nodup := List.nodup_nil
  allocated := by
    intro i
    simp [ipAssocInit]

/-! ### The result -/

/-- For every database, a node that is written is read back as it was, with its endpoints in order, and
the rows of the other nodes stay; and the association table that was persisted comes back when it is
read into an empty one. -/
theorem data_store_round_trip (db : Database) (n : NodeEntry) (s t : IpAssoc.State) (hlinked : s.table.Nodup) :
    (db.nvmWrite n).read n.nodeid = some { n with nEndpoints := UInt8.ofNat n.endpoints.length } ∧
      (∀ nodeid, nodeid ≠ n.nodeid → selectWhere ntColNodeid nodeid.toUInt32 (db.nvmWrite n).nodes =
            selectWhere ntColNodeid nodeid.toUInt32 db.nodes ∧
          selectWhere etColNodeid nodeid.toUInt32 (db.nvmWrite n).endpoints =
            selectWhere etColNodeid nodeid.toUInt32 db.endpoints ∧
          (db.nvmWrite n).read nodeid = db.read nodeid) ∧
      (let db' := db.persistAssociations (s.table.map s.mem)
       let t' := db'.unpersistAssociation (ipAssocInit t)
       t'.table.map t'.mem = s.table.map s.mem) := by
  refine ⟨read_nvmWrite_self db n, ?_, ?_⟩
  · intro nodeid hne
    obtain ⟨hnodes, heps⟩ := selectWhere_nvmWrite_of_ne db n hne
    exact ⟨hnodes, heps, read_nvmWrite_of_ne db n hne⟩
  · have hroom : (ipAssocInit t).table.length + (s.table.map s.mem).length ≤ 200 := by
      have hcard := hlinked.length_le_card
      rw [Fintype.card_fin] at hcard
      simpa [ipAssocInit] using hcard
    intro db' t'
    change (unpersistRows (ipAssocInit t) db'.ipAssociation).table.map
      (unpersistRows (ipAssocInit t) db'.ipAssociation).mem = _
    rw [ipAssociation_persistAssociations, unpersistRows_associationRows _ _ _ (linked_ipAssocInit t) hroom]
    rfl

def sampleEndpoint : EpEntry where
  endpointId := 0
  state := .probeDone
  installerIconId := 0x0500
  userIconId := 0x0501
  name := .ofBytes [0x4C, 0x61, 0x6D, 0x70]
  location := .ofBytes [0x48, 0x61, 0x6C, 0x6C]
  agg := .empty
  info := .ofBytes [0x10, 0x01, 0x25]

def sampleNode : NodeEntry where
  nodeid := 300
  wakeUpInterval := 4200
  lastAwake := 0xFFFFFFFF
  lastUpdate := 12
  securityFlags := 0x90
  mode := 0x0204
  state := .failing
  manufacturerId := 0x0086
  productType := 3
  productId := 0x8001
  nodeType := 4
  nEndpoints := 2
  nAggEndpoints := 1
  name := .empty
  dsk := .ofBytes [1, 2, 3]
  versionCapAndZwaveSw := 7
  probeFlags := 3
  propertiesFlags := 0
  ccVersions := .ofBytes [0x86, 0, 3, 0]
  isZwsProbed := 1
  endpoints := [sampleEndpoint,
    { sampleEndpoint with endpointId := 1, name := .ofBytes [0x46, 0x61, 0x6E], location := .empty, agg := .ofBytes [2, 3] }]

def sampleLink (node : NodeId) : IpAssoc.Assoc :=
  { IpAssoc.Assoc.zero with virtualId := 200 + node, type := .permanent, resourcePort := 4123, grouping := 1, hanNodeid := node }

def twoLinked : IpAssoc.State :=
  { IpAssoc.State.init with
    table := (List.finRange 200).take 2
    mem := fun i => sampleLink (if i.val = 0 then 5 else 300) }

theorem sampleNode_round_trip : (Database.empty.nvmWrite sampleNode).read 300 = some sampleNode ∧
    let t' := (Database.empty.persistAssociations (twoLinked.table.map twoLinked.mem)).unpersistAssociation
      (ipAssocInit .init)
    t'.table.map t'.mem = [sampleLink 5, sampleLink 300] := by
  have hlinked : twoLinked.table.Nodup := by decide
  have hread := data_store_round_trip Database.empty sampleNode twoLinked .init hlinked
  exact ⟨hread.1, hread.2.2⟩

end ZipGateway.Directory
