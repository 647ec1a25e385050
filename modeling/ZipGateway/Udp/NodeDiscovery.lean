import ZipGateway.Dhcp.NatTable

/-!
# Node discovery

`ZipND_CommandHandler` turns a solicitation into the advertisement that answers it, in the same buffer. A
long range node id takes the two bytes of the extension and 0xff in the field of one byte; which form a
frame has is decided by its length when it is read, and by two tests of the node id when it is written.
-/

namespace ZipGateway.Udp.NodeDiscovery

open Dhcp (Ip4 wordAt)

def zipNodeSolicitation : UInt8 := 0x03
def zipInvNodeSolicitation : UInt8 := 0x04
def zipNodeAdvertisementLocalBitMask : UInt8 := 0x04
def validityOk : UInt8 := 0x00
def validityObsolete : UInt8 := 0x01
def validityNotFound : UInt8 := 0x02

/-- The words of an address, in network order. -/
abbrev Ip6 := Fin 8 → UInt16

/-- `MyNodeID`, `homeID`, `cfg.pan_prefix` and `cfg.lan_addr`, the addresses of the interface, the nodes of
the resource directory, and the NAT table. -/
structure Site where
  myNodeId : NodeId
  homeId : UInt32
  panPrefix : Ip6
  lanAddr : Ip6
  isMyAddr : Ip6 → Bool
  nodeExists : NodeId → Bool
  nat : Dhcp.State

def uipIs4to6Addr (a : Ip6) : Bool :=
  a 0 = 0 ∧ a 1 = 0 ∧ a 2 = 0 ∧ a 3 = 0 ∧ a 4 = 0 ∧ a 5 = 0xFFFF

def mapped (a : Ip4) : Ip6 := fun i =>
  if i = 5 then 0xFFFF else if i = 6 then a.hi else if i = 7 then a.lo else 0

namespace Site

variable (site : Site)

def ipOfNode (nodeid : NodeId) : Ip6 :=
  if nodeid = site.myNodeId then site.lanAddr else Function.update site.panPrefix 7 nodeid

def nodeOfIp (a : Ip6) : NodeId :=
  if a 0 = site.panPrefix 0 ∧ a 1 = site.panPrefix 1 ∧ a 2 = site.panPrefix 2 ∧ a 3 = site.panPrefix 3 then a 7
  else if site.isMyAddr a then site.myNodeId
  else if uipIs4to6Addr a then site.nat.getNatAddr ⟨a 6, a 7⟩
  else 0

structure Advertisement where
  properties1 : UInt8
  nodeID : UInt8
  address : Ip6
  homeId : UInt32
  extendedNodeidMsb : UInt8
  extendedNodeidLsb : UInt8

def Advertisement.node (a : Advertisement) : NodeId :=
  if a.nodeID = 0xFF then a.extendedNodeidMsb.toUInt16 <<< 8 ||| a.extendedNodeidLsb.toUInt16 else a.nodeID.toUInt16

def validity (nodeid : NodeId) : UInt8 :=
  if nodeid = 0 then validityNotFound
  else if nodeid = site.myNodeId ∨ site.nodeExists nodeid then validityOk
  else validityObsolete

def properties (old : UInt8) (nodeid : NodeId) : UInt8 :=
  old &&& zipNodeAdvertisementLocalBitMask &&& ~~~3 ||| site.validity nodeid

def advertise (old : UInt8) (nodeid : NodeId) (address : Ip6) (extended : Bool) : Advertisement :=
  if extended then
    ⟨site.properties old nodeid, 0xFF, address, site.homeId, (nodeid >>> 8).toUInt8, (nodeid &&& 0xFF).toUInt8⟩
  else ⟨site.properties old nodeid, nodeid.toUInt8, address, site.homeId, 0, 0⟩

def solicited (data : Mem) (len : UInt16) : NodeId :=
  if 6 ≤ len then (data 4).toUInt16 <<< 8 ||| (data 5).toUInt16 else (data 3).toUInt16

def addressField (data : Mem) : Ip6 := fun i =>
  wordAt data (4 + 2 * i)

def lookup (address : Ip6) : NodeId :=
  if uipIs4to6Addr address then site.nat.getNatAddr ⟨address 6, address 7⟩ else site.nodeOfIp address

def zipNdCommandHandler (ripaddr : Ip6) (data : Mem) (len : UInt16) : Advertisement :=
  let nodeid := solicited data len
  let address := addressField data
  if data 1 = zipInvNodeSolicitation then
    let address :=
      if uipIs4to6Addr ripaddr then mapped ((site.nat.ipv4addrOfNode nodeid).getD .zero)
      else site.ipOfNode nodeid
    site.advertise (data 2) nodeid address (isLrNode nodeid)
  else if data 1 = zipNodeSolicitation then
    let nodeid := site.lookup address
    site.advertise (data 2) nodeid address (0x100 < nodeid)
  else
    { site.advertise (data 2) nodeid address true with
      nodeID := data 3, extendedNodeidMsb := data 24, extendedNodeidLsb := data 25 }

def addressOf (ripaddr : Ip6) (nodeid : NodeId) : Option Ip6 :=
  if uipIs4to6Addr ripaddr then (site.nat.ipv4addrOfNode nodeid).map mapped else some (site.ipOfNode nodeid)

/-- The frame is answered with the address, the id and the validity of the node, whatever is behind it. -/
structure Answers (ripaddr : Ip6) (data : Mem) (len : UInt16) (nodeid : NodeId) (address : Option Ip6) : Prop where
  address_eq : some (site.zipNdCommandHandler ripaddr data len).address = address
  node_eq : (site.zipNdCommandHandler ripaddr data len).node = nodeid
  validity_eq : (site.zipNdCommandHandler ripaddr data len).properties1 &&& 3 = site.validity nodeid
  congr : ∀ data' : Mem, (∀ i < len.toNat, data' i = data i) →
    site.zipNdCommandHandler ripaddr data' len = site.zipNdCommandHandler ripaddr data len

end Site

structure NodeFrame where
  node : NodeId
  data : Mem
  len : UInt16
  valid : 0 < node ∧ node ≤ 232 ∨ 256 ≤ node ∧ node ≤ 4000

/-- An inverse solicitation for a node, in the form of its advertisement. -/
structure InverseSolicitation extends NodeFrame where
  cmd : data 1 = zipInvNodeSolicitation
  complete : 4 ≤ len
  classic : node < 256 → data 3 = node.toUInt8 ∧ (6 ≤ len → data 4 = 0 ∧ data 5 = 0)
  longRange : 256 ≤ node → data 3 = 0xFF ∧ 6 ≤ len ∧ data 4 = (node >>> 8).toUInt8 ∧ data 5 = (node &&& 0xFF).toUInt8

structure Solicitation (site : Site) extends NodeFrame where
  ripaddr : Ip6
  cmd : data 1 = zipNodeSolicitation
  complete : 20 ≤ len
  address : site.addressOf ripaddr node = some (Site.addressField data)

section Advertisement

variable {site : Site} {old : UInt8} {n : NodeId} {address ripaddr : Ip6} {data : Mem} {len : UInt16}

theorem word_bytes : (n >>> 8).toUInt8.toUInt16 <<< 8 ||| (n &&& 0xFF).toUInt8.toUInt16 = n := by
  apply UInt16.toNat_inj.mp
  have hlow : (n &&& 0xFF).toNat = n.toNat % 2 ^ 8 := by
    rw [UInt16.toNat_and]
    exact Nat.and_two_pow_sub_one_eq_mod n.toNat 8
  have hlt := n.toNat_lt
  have hshift : n.toNat / 2 ^ 8 % 2 ^ 8 = n.toNat / 2 ^ 8 := Nat.mod_eq_of_lt (by omega)
  rw [UInt16.toNat_or, UInt16.toNat_shiftLeft, UInt8.toNat_toUInt16, UInt8.toNat_toUInt16, UInt16.toNat_toUInt8,
    UInt16.toNat_toUInt8, hlow, UInt16.toNat_shiftRight]
  change (n.toNat >>> 8 % 2 ^ 8) <<< 8 % 2 ^ 16 ||| n.toNat % 2 ^ 8 % 2 ^ 8 = n.toNat
  rw [Nat.shiftRight_eq_div_pow, hshift, Nat.mod_mod, Nat.shiftLeft_eq, Nat.mod_eq_of_lt (by omega),
    Nat.mul_comm, ← Nat.two_pow_add_eq_or_of_lt (Nat.mod_lt _ (by decide)), Nat.div_add_mod]

theorem classic_byte (h : n ≤ 255) : n.toUInt8.toUInt16 = n := by
  apply UInt16.toNat_inj.mp
  have hle := UInt16.le_iff_toNat_le.mp h
  simp at *
  omega

theorem node_extended : (site.advertise old n address true).node = n :=
  word_bytes

/-- In the classic form the id is read back up to 254; 255 stands for the extension, which is zero. -/
theorem node_classic (h : n ≤ 256) : (site.advertise old n address false).node = if n < 255 then n else 0 := by
  have hzero : (0 : UInt8).toUInt16 <<< 8 ||| (0 : UInt8).toUInt16 = 0 := by decide
  rw [Site.advertise, if_neg Bool.false_ne_true, Site.Advertisement.node, hzero]
  have hn : n.toNat ≤ 256 := UInt16.le_iff_toNat_le.mp h
  have hlt : n < 255 ↔ n.toNat < 255 := UInt16.lt_iff_toNat_lt
  have hlast : n.toUInt8 = 0xFF ↔ n.toNat % 256 = 255 := by
    rw [← UInt8.toNat_inj, UInt16.toNat_toUInt8]
    rfl
  apply UInt16.toNat_inj.mp
  rcases Nat.lt_trichotomy n.toNat 255 with hbelow | hequal | habove
  · rw [if_neg (by rw [hlast]; omega), if_pos (hlt.mpr hbelow), UInt8.toNat_toUInt16, UInt16.toNat_toUInt8]
    omega
  · rw [if_pos (by rw [hlast]; omega), if_neg (by rw [hlt]; omega)]
  · rw [if_neg (by rw [hlast]; omega), if_neg (by rw [hlt]; omega), UInt8.toNat_toUInt16, UInt16.toNat_toUInt8]
    change n.toNat % 256 = 0
    omega

theorem validity_properties : site.properties old n &&& 3 = site.validity n := by
  have hbits : ∀ v : UInt8, v &&& 3 = v → (old &&& zipNodeAdvertisementLocalBitMask &&& ~~~3 ||| v) &&& 3 = v := by
    intro v hv
    have hdistrib : ∀ x y z : UInt8, (x ||| y) &&& z = x &&& z ||| y &&& z :=
      fun x y z => UInt8.toNat_inj.mp (Nat.and_or_distrib_right ..)
    rw [hdistrib, UInt8.and_assoc, UInt8.and_assoc]
    change old &&& 0 ||| v &&& 3 = v
    rw [hv, UInt8.and_zero, UInt8.zero_or]
  apply hbits
  unfold Site.validity
  split
  · rfl
  · split <;> rfl

theorem handler_inverse (h : data 1 = zipInvNodeSolicitation) :
    site.zipNdCommandHandler ripaddr data len = site.advertise (data 2) (Site.solicited data len)
      (if uipIs4to6Addr ripaddr then mapped ((site.nat.ipv4addrOfNode (Site.solicited data len)).getD .zero)
        else site.ipOfNode (Site.solicited data len)) (isLrNode (Site.solicited data len)) := by
  rw [Site.zipNdCommandHandler, if_pos h]

theorem handler_solicitation (h : data 1 = zipNodeSolicitation) :
    site.zipNdCommandHandler ripaddr data len = site.advertise (data 2) (site.lookup (Site.addressField data))
      (Site.addressField data) (0x100 < site.lookup (Site.addressField data)) := by
  have hother : data 1 ≠ zipInvNodeSolicitation := by
    rw [h]
    decide
  rw [Site.zipNdCommandHandler, if_neg hother, if_pos h]

theorem advertise_fields {extended : Bool} : (site.advertise old n address extended).address = address ∧
    (site.advertise old n address extended).properties1 &&& 3 = site.validity n := by
  cases extended <;> exact ⟨rfl, validity_properties⟩

end Advertisement

section Frames

variable {site : Site} {ripaddr : Ip6}

theorem NodeFrame.node_ne_zero (f : NodeFrame) : f.node ≠ 0 := by
  intro hzero
  have hvalid := f.valid
  rw [hzero] at hvalid
  exact absurd hvalid (by decide)

/-- The node id is taken from a short frame and from the extension; a classic id with a zero extension is
read as 0. -/
theorem InverseSolicitation.solicited_eq (f : InverseSolicitation) :
    Site.solicited f.data f.len = if 256 ≤ f.node ∨ f.len < 6 then f.node else 0 := by
  have hlen : f.len < 6 ↔ ¬6 ≤ f.len := UInt16.not_le.symm
  unfold Site.solicited
  by_cases hlr : 256 ≤ f.node
  · obtain ⟨-, hcomplete, hmsb, hlsb⟩ := f.longRange hlr
    rw [if_pos hcomplete, if_pos (.inl hlr), hmsb, hlsb, word_bytes]
  · obtain ⟨hnode, hext⟩ := f.classic (UInt16.not_le.mp hlr)
    by_cases hcomplete : 6 ≤ f.len
    · obtain ⟨hmsb, hlsb⟩ := hext hcomplete
      rw [if_pos hcomplete, if_neg (by tauto), hmsb, hlsb]
      rfl
    · have hle : f.node ≤ 255 := by
        have := UInt16.not_le.mp hlr
        rw [UInt16.lt_iff_toNat_lt] at this
        rw [UInt16.le_iff_toNat_le]
        exact Nat.le_of_lt_succ this
      rw [if_neg hcomplete, if_pos (.inr (hlen.mpr hcomplete)), hnode, classic_byte hle]

theorem isLrNode_iff (f : NodeFrame) : isLrNode f.node = true ↔ 256 ≤ f.node := by
  have hvalid := f.valid
  rw [isLrNode, isLr, Bool.and_eq_true, decide_eq_true_eq, decide_eq_true_eq]
  constructor
  · exact fun h => UInt16.le_iff_toNat_le.mpr h.1
  · intro hle
    rcases hvalid with ⟨-, hclassic⟩ | hlr
    · exact absurd (UInt16.le_trans hle hclassic) (by decide)
    · exact ⟨UInt16.le_iff_toNat_le.mp hlr.1, UInt16.le_iff_toNat_le.mp hlr.2⟩

theorem inverse_answers_iff (f : InverseSolicitation) :
    site.Answers ripaddr f.data f.len f.node (site.addressOf ripaddr f.node) ↔
      (256 ≤ f.node ∨ f.len < 6) ∧ (uipIs4to6Addr ripaddr = true → (site.nat.ipv4addrOfNode f.node).isSome) := by
  have hhandler := fun (data' : Mem) (h : data' 1 = zipInvNodeSolicitation) =>
    @handler_inverse site ripaddr data' f.len h
  have hsolicited := f.solicited_eq
  constructor
  · intro h
    have hread : 256 ≤ f.node ∨ f.len < 6 := by
      by_contra hclassic
      rw [if_neg hclassic] at hsolicited
      have hnode := h.node_eq
      rw [hhandler _ f.cmd, hsolicited] at hnode
      exact f.node_ne_zero (hnode.symm.trans (node_classic (by decide)))
    refine ⟨hread, fun h46 => ?_⟩
    have haddress := h.address_eq
    rw [Site.addressOf, if_pos h46] at haddress
    rcases hentry : site.nat.ipv4addrOfNode f.node with _ | a
    · rw [hentry] at haddress
      exact absurd haddress (Option.some_ne_none _)
    · rfl
  · rintro ⟨hread, hentry⟩
    rw [if_pos hread] at hsolicited
    refine ⟨?_, ?_, ?_, fun data' hsame => ?_⟩
    · rw [hhandler _ f.cmd, advertise_fields.1, hsolicited, Site.addressOf]
      split
      · rename_i h46
        obtain ⟨a, ha⟩ := Option.isSome_iff_exists.mp (hentry h46)
        rw [ha]
        rfl
      · rfl
    · rw [hhandler _ f.cmd, hsolicited]
      by_cases hlr : 256 ≤ f.node
      · rw [(isLrNode_iff f.toNodeFrame).mpr hlr]
        exact node_extended
      · have hfalse : isLrNode f.node = false := Bool.eq_false_iff.mpr fun h => hlr ((isLrNode_iff _).mp h)
        rw [hfalse, node_classic (UInt16.le_of_lt (UInt16.not_le.mp hlr)), if_pos]
        rcases f.valid with ⟨-, hclassic⟩ | ⟨hle, -⟩
        · exact UInt16.lt_of_le_of_lt hclassic (by decide)
        · exact absurd hle hlr
    · rw [hhandler _ f.cmd, advertise_fields.2, hsolicited]
    · have hcomplete : 4 ≤ f.len.toNat := UInt16.le_iff_toNat_le.mp f.complete
      have hids : Site.solicited data' f.len = Site.solicited f.data f.len := by
        unfold Site.solicited
        split
        · rename_i hlong
          have : 6 ≤ f.len.toNat := UInt16.le_iff_toNat_le.mp hlong
          rw [hsame 4 (by omega), hsame 5 (by omega)]
        · rw [hsame 3 (by omega)]
      rw [hhandler _ ((hsame 1 (by omega)).trans f.cmd), hhandler _ f.cmd, hsame 2 (by omega), hids]

theorem solicitation_answers_iff (f : Solicitation site) :
    site.Answers ripaddr f.data f.len f.node (site.addressOf f.ripaddr f.node) ↔
      site.lookup (Site.addressField f.data) = f.node ∧ f.node ≠ 256 := by
  have hhandler := fun (data' : Mem) (h : data' 1 = zipNodeSolicitation) =>
    @handler_solicitation site ripaddr data' f.len h
  have hlt : ∀ m : NodeId, (0x100 < m ↔ ¬m ≤ 256) := fun m => UInt16.not_le.symm
  constructor
  · intro h
    have hnode := h.node_eq
    rw [hhandler _ f.cmd] at hnode
    by_cases hle : site.lookup (Site.addressField f.data) ≤ 256
    · rw [decide_eq_false fun h => (hlt _).mp h hle, node_classic hle] at hnode
      split at hnode
      · rename_i hbelow
        refine ⟨hnode, fun heq => ?_⟩
        rw [hnode, heq] at hbelow
        exact absurd hbelow (by decide)
      · exact absurd hnode.symm f.node_ne_zero
    · rw [decide_eq_true ((hlt _).mpr hle), node_extended] at hnode
      refine ⟨hnode, fun heq => hle ?_⟩
      rw [hnode, heq]
      decide
  · rintro ⟨hlookup, hne⟩
    refine ⟨?_, ?_, ?_, fun data' hsame => ?_⟩
    · rw [hhandler _ f.cmd, advertise_fields.1, f.address]
    · rw [hhandler _ f.cmd, hlookup]
      rcases f.valid with ⟨-, hclassic⟩ | ⟨hlr, -⟩
      · have hle : f.node ≤ 256 := UInt16.le_trans hclassic (by decide)
        rw [decide_eq_false fun h => (hlt _).mp h hle, node_classic hle, if_pos]
        exact UInt16.lt_of_le_of_lt hclassic (by decide)
      · rw [decide_eq_true (UInt16.lt_of_le_of_ne hlr hne.symm), node_extended]
    · rw [hhandler _ f.cmd, advertise_fields.2, hlookup]
    · have hcomplete : 20 ≤ f.len.toNat := UInt16.le_iff_toNat_le.mp f.complete
      have hfield : Site.addressField data' = Site.addressField f.data := by
        funext i
        have := i.isLt
        rw [Site.addressField, Site.addressField, wordAt, wordAt, hsame _ (by omega), hsame _ (by omega)]
      rw [hhandler _ ((hsame 1 (by omega)).trans f.cmd), hhandler _ f.cmd, hsame 2 (by omega), hfield]

/-- An inverse solicitation is answered for a long range node, and for a classic one in the short form, if a
requester over IPv4 asks for a node with an entry in the NAT table; a solicitation is answered where the address
leads back to the node, which is not 256. The addresses of the nodes in the PAN do. -/
theorem zipNd_answers_iff (site : Site) (ripaddr : Ip6) :
    (∀ f : InverseSolicitation, site.Answers ripaddr f.data f.len f.node (site.addressOf ripaddr f.node) ↔
      (256 ≤ f.node ∨ f.len < 6) ∧ (uipIs4to6Addr ripaddr = true → (site.nat.ipv4addrOfNode f.node).isSome)) ∧
    (∀ f : Solicitation site, site.Answers ripaddr f.data f.len f.node (site.addressOf f.ripaddr f.node) ↔
      site.lookup (Site.addressField f.data) = f.node ∧ f.node ≠ 256) ∧
    ∀ n, n ≠ site.myNodeId → uipIs4to6Addr (site.ipOfNode n) = false → site.lookup (site.ipOfNode n) = n := by
  refine ⟨inverse_answers_iff, solicitation_answers_iff, fun n hne hpan => ?_⟩
  rw [Site.lookup, hpan, if_neg Bool.false_ne_true, Site.nodeOfIp, Site.ipOfNode, if_neg hne, if_pos]
  · exact Function.update_self ..
  · exact ⟨rfl, rfl, rfl, rfl⟩

def sampleSite : Site :=
  ⟨1, 0, fun _ => 0, fun _ => 0, fun _ => false, fun _ => true, .init⟩

def sampleInverse : InverseSolicitation where
  node := 5
  data i := [0x58, 0x04, 0, 5, 0, 0].getD i 0
  len := 6
  valid := by decide
  cmd := rfl
  complete := by decide
  classic _ := ⟨rfl, fun _ => ⟨rfl, rfl⟩⟩
  longRange h := absurd h (by decide)

/-- The frame with a zero extension for the node 5 is answered for the node 0. -/
theorem zipNd_answers_not : ¬ ∀ (site : Site) (ripaddr : Ip6) (f : InverseSolicitation),
    site.Answers ripaddr f.data f.len f.node (site.addressOf ripaddr f.node) := by
  intro hall
  have hnode := (hall sampleSite (fun _ => 1) sampleInverse).node_eq
  exact absurd hnode (by decide)

end Frames
end ZipGateway.Udp.NodeDiscovery
