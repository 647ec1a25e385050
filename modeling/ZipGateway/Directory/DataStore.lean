import ZipGateway.Bridge.IpAssociation
import ZipGateway.Directory.Entries
import ZipGateway.Lib.Endian
import ZipGateway.Lib.Sqlite

/-!
# The data store

`RD_DataStore_Sqlite.c` keeps the nodes, their endpoints and the IP associations in tables of an SQLite
database. Columns are bound and read by their number. A node that is written replaces the rows that
were there, which are deleted first.
-/

namespace ZipGateway.Directory

open Sqlite

/-! ### Columns -/

def ntColNodeid : Fin 19 := 0
def ntColWakeUpInterval : Fin 19 := 1
def ntColLastAwake : Fin 19 := 2
def ntColLastUpdate : Fin 19 := 3
def ntColSecurityFlags : Fin 19 := 4
def ntColMode : Fin 19 := 5
def ntColState : Fin 19 := 6
def ntColManufacturerId : Fin 19 := 7
def ntColProductType : Fin 19 := 8
def ntColProductId : Fin 19 := 9
def ntColNodeType : Fin 19 := 10
def ntColNAggEndpoints : Fin 19 := 11
def ntColName : Fin 19 := 12
def ntColDsk : Fin 19 := 13
def ntColNodeVersionCapAndZwaveSw : Fin 19 := 14
def ntColProbeFlags : Fin 19 := 15
def ntColPropertiesFlags : Fin 19 := 16
def ntColCcVersions : Fin 19 := 17
def ntColNodeIsZwsProbed : Fin 19 := 18

def etColEndpointid : Fin 9 := 0
def etColNodeid : Fin 9 := 1
def etColInfo : Fin 9 := 2
def etColAggr : Fin 9 := 3
def etColName : Fin 9 := 4
def etColLocation : Fin 9 := 5
def etColState : Fin 9 := 6
def etColInstallerIconId : Fin 9 := 7
def etColUserIconId : Fin 9 := 8

def ipaColVirtualId : Fin 11 := 0
def ipaColType : Fin 11 := 1
def ipaColResourceIp : Fin 11 := 2
def ipaColResourceEndpoint : Fin 11 := 3
def ipaColResourcePort : Fin 11 := 4
def ipaColVirtualEndpoint : Fin 11 := 5
def ipaColGrouping : Fin 11 := 6
def ipaColHanNodeid : Fin 11 := 7
def ipaColHanEndpoint : Fin 11 := 8
def ipaColWasDtls : Fin 11 := 9
def ipaColMarkRemoval : Fin 11 := 10

/-- The tables, and the parameters of the statements that are prepared once: `node_insert_stmt` and
`ep_insert_stmt`. -/
structure Database where
  nodes : List (Row 19)
  endpoints : List (Row 9)
  ipAssociation : List (Row 11)
  nodeInsert : Row 19
  epInsert : Row 9

def Database.empty : Database :=
  ⟨[], [], [], Row.null, Row.null⟩

/-! ### Nodes -/

def bindNode (row : Row 19) (n : NodeHeader) : Row 19 :=
  let row := bindInt row ntColNodeid n.nodeid.toUInt32
  let row := bindInt row ntColWakeUpInterval n.wakeUpInterval
  let row := bindInt row ntColLastAwake n.lastAwake
  let row := bindInt row ntColLastUpdate n.lastUpdate
  let row := bindInt row ntColSecurityFlags n.securityFlags.toUInt32
  let row := bindInt row ntColMode n.mode
  let row := bindInt row ntColState n.state.code
  let row := bindInt row ntColManufacturerId n.manufacturerId.toUInt32
  let row := bindInt row ntColProductType n.productType.toUInt32
  let row := bindInt row ntColProductId n.productId.toUInt32
  let row := bindInt row ntColNodeType n.nodeType.toUInt32
  let row := bindInt row ntColNAggEndpoints n.nAggEndpoints.toUInt32
  let row := bindInt row ntColNodeVersionCapAndZwaveSw n.versionCapAndZwaveSw.toUInt32
  let row := bindInt row ntColProbeFlags n.probeFlags.toUInt32
  let row := bindInt row ntColPropertiesFlags n.propertiesFlags.toUInt32
  let row := bindBlob row ntColName n.name
  let row := bindBlob row ntColDsk n.dsk
  let row := bindBlob row ntColCcVersions n.ccVersions
  bindInt row ntColNodeIsZwsProbed n.isZwsProbed.toUInt32

def bindEndpoint (row : Row 9) (nodeid : NodeId) (e : EpEntry) : Row 9 :=
  let row := bindInt row etColEndpointid e.endpointId.toUInt32
  let row := bindInt row etColNodeid nodeid.toUInt32
  let row := bindBlob row etColInfo e.info
  let row := bindBlob row etColAggr e.agg
  let row := bindBlob row etColName e.name
  let row := bindBlob row etColLocation e.location
  let row := bindInt row etColState e.state.code
  let row := bindInt row etColInstallerIconId e.installerIconId.toUInt32
  bindInt row etColUserIconId e.userIconId.toUInt32

def readNode (row : Row 19) : NodeHeader where
  nodeid := (columnInt row ntColNodeid).toUInt16
  wakeUpInterval := columnInt row ntColWakeUpInterval
  lastAwake := columnInt row ntColLastAwake
  lastUpdate := columnInt row ntColLastUpdate
  securityFlags := (columnInt row ntColSecurityFlags).toUInt8
  mode := columnInt row ntColMode
  state := .ofCode (columnInt row ntColState)
  manufacturerId := (columnInt row ntColManufacturerId).toUInt16
  productType := (columnInt row ntColProductType).toUInt16
  productId := (columnInt row ntColProductId).toUInt16
  nodeType := (columnInt row ntColNodeType).toUInt8
  nAggEndpoints := (columnInt row ntColNAggEndpoints).toUInt8
  name := .ofBytes (columnBlob row ntColName)
  dsk := .ofBytes (columnBlob row ntColDsk)
  versionCapAndZwaveSw := (columnInt row ntColNodeVersionCapAndZwaveSw).toUInt8
  probeFlags := (columnInt row ntColProbeFlags).toUInt16
  propertiesFlags := (columnInt row ntColPropertiesFlags).toUInt16
  ccVersions := .ofBytes (columnBlob row ntColCcVersions)
  isZwsProbed := (columnInt row ntColNodeIsZwsProbed).toUInt8
  nEndpoints := 0

def readEndpoint (row : Row 9) : EpEntry where
  endpointId := (columnInt row etColEndpointid).toUInt8
  installerIconId := (columnInt row etColInstallerIconId).toUInt16
  userIconId := (columnInt row etColUserIconId).toUInt16
  state := .ofCode (columnInt row etColState)
  name := .ofBytes (columnBlob row etColName)
  location := .ofBytes (columnBlob row etColLocation)
  agg := .ofBytes (columnBlob row etColAggr)
  info := .ofBytes (columnBlob row etColInfo)

/-- `list_add` of an endpoint that was read, and the count. -/
def NodeEntry.addRow (n : NodeEntry) (row : Row 9) : NodeEntry :=
  { n with
    endpoints := n.endpoints ++ [readEndpoint row]
    nEndpoints := n.nEndpoints + 1 }

def Database.read (db : Database) (nodeid : NodeId) : Option NodeEntry :=
  match selectWhere ntColNodeid nodeid.toUInt32 db.nodes with
  | [] => none
  | row :: _ =>
    some ((selectWhere etColNodeid nodeid.toUInt32 db.endpoints).foldl NodeEntry.addRow ⟨readNode row, []⟩)

def Database.nvmFree (db : Database) (nodeid : NodeId) : Database :=
  { db with
    nodes := deleteWhere ntColNodeid nodeid.toUInt32 db.nodes
    endpoints := deleteWhere etColNodeid nodeid.toUInt32 db.endpoints }

def Database.insertEndpoint (nodeid : NodeId) (db : Database) (e : EpEntry) : Database :=
  let row := bindEndpoint db.epInsert nodeid e
  { db with epInsert := row, endpoints := insertInto row db.endpoints }

def Database.nvmWrite (db : Database) (n : NodeEntry) : Database :=
  let db := db.nvmFree n.nodeid
  let row := bindNode db.nodeInsert n.toNodeHeader
  let db := { db with nodeInsert := row, nodes := insertKeyed ntColNodeid row db.nodes }
  n.endpoints.foldl (Database.insertEndpoint n.nodeid) db

/-! ### Associations -/

def ipBytes (ip : IpAddr) : Bytes :=
  (Endian.toBytes 16 ip.toNat).reverse

def ipOfBytes (bytes : Bytes) : IpAddr :=
  BitVec.ofNat 128 (Endian.ofBytes bytes.reverse)

/-- `ip_assoc_type_t`. -/
def typeCode : IpAssoc.AssocType → UInt32
  | .unset => 0
  | .permanent => 1
  | .localAssoc => 2
  | .proxy => 3

def typeOfCode (x : UInt32) : IpAssoc.AssocType :=
  if x = 1 then .permanent
  else if x = 2 then .localAssoc
  else if x = 3 then .proxy
  else .unset

def bindAssociation (row : Row 11) (a : IpAssoc.Assoc) : Row 11 :=
  let row := bindInt row ipaColVirtualId a.virtualId.toUInt32
  let row := bindInt row ipaColType (typeCode a.type)
  let row := bindBlob row ipaColResourceIp (ipBytes a.resourceIp)
  let row := bindInt row ipaColResourceEndpoint a.resourceEndpoint.toUInt32
  let row := bindInt row ipaColResourcePort a.resourcePort.toUInt32
  let row := bindInt row ipaColVirtualEndpoint a.virtualEndpoint.toUInt32
  let row := bindInt row ipaColGrouping a.grouping.toUInt32
  let row := bindInt row ipaColHanNodeid a.hanNodeid.toUInt32
  let row := bindInt row ipaColHanEndpoint a.hanEndpoint.toUInt32
  let row := bindInt row ipaColWasDtls a.wasDtls.toUInt32
  bindInt row ipaColMarkRemoval a.markRemoval.toUInt32

/-- The columns `rd_datastore_unpersist_association` takes; an address of another length stays as it was. -/
def readAssociation (a : IpAssoc.Assoc) (row : Row 11) : IpAssoc.Assoc where
  virtualId := (columnInt row ipaColVirtualId).toUInt16
  type := typeOfCode (columnInt row ipaColType)
  resourceIp :=
    if (columnBlob row ipaColResourceIp).length = 16 then ipOfBytes (columnBlob row ipaColResourceIp)
    else a.resourceIp
  resourceEndpoint := (columnInt row ipaColResourceEndpoint).toUInt8
  resourcePort := (columnInt row ipaColResourcePort).toUInt16
  virtualEndpoint := (columnInt row ipaColVirtualEndpoint).toUInt8
  grouping := (columnInt row ipaColGrouping).toUInt8
  hanNodeid := (columnInt row ipaColHanNodeid).toUInt16
  hanEndpoint := (columnInt row ipaColHanEndpoint).toUInt8
  wasDtls := (columnInt row ipaColWasDtls).toUInt8
  markRemoval := (columnInt row ipaColMarkRemoval).toUInt8

def Database.persistAssociations (db : Database) (table : List IpAssoc.Assoc) : Database :=
  { db with
    ipAssociation := (table.foldl (fun (rows, row) a =>
      let row := bindAssociation row a
      (insertInto row rows, row)) ([], Row.null)).1 }

def ipAssocInit (s : IpAssoc.State) : IpAssoc.State :=
  { s with table := [], allocated := fun _ => false, virtualAdd := none, createCb := none }

def unpersistRows (s : IpAssoc.State) : List (Row 11) → IpAssoc.State
  | [] => s
  | row :: rows =>
    match s.membAlloc with
    | (none, s) => s
    | (some i, s) =>
      unpersistRows ((s.withMem i (readAssociation (s.mem i) row)).withTable (s.table.erase i ++ [i])) rows

def Database.unpersistAssociation (db : Database) (s : IpAssoc.State) : IpAssoc.State :=
  unpersistRows s db.ipAssociation

end ZipGateway.Directory
