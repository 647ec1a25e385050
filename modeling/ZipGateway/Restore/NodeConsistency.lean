import Mathlib.Data.List.Induction
import ZipGateway.Restore.MemberOrder

/-!
# The nodes that are restored

What `zgw_parse_zwnode` promises of a network node that it imports: the counts, the order of its endpoints,
their node information frames and their states. The objects of the array give the endpoints one by one, so the
loop over them is known from these.
-/

namespace ZipGateway.Restore

open JsonTree

section Frames

def memberFrame (index : Nat) (m : Member) : Option Bytes :=
  match m.2 with
  | .object members =>
    if m.1 = "endpointInfoFrames" ∨ m.1 = "supportedCCs" then
      let nif := (((Json.object members).get? "nonSecureNIF").map hexCreateFromJson).getD []
      let secNif := (((Json.object members).get? "secureNIF").map hexCreateFromJson).getD []
      if nif = [] then none
      else some (nif ++ (if index = 0 then [commandClassZipNaming, commandClassZip] else []) ++
        (if secNif = [] then [] else securityScheme0Mark ++ secNif))
    else none
  | _ => none

def documentedFrame (index : Nat) (item : Json) : Option Bytes :=
  (item.members.filterMap (memberFrame index)).getLast?

def memberDone (m : Member) : Bool :=
  match m.2 with
  | .string str => m.1 = "state" ∧ 4 ≤ str.length ∧ str.take 4 = ascii "DONE"
  | _ => false

def statesDone (item : Json) : Bool :=
  item.members.any memberDone

variable {index : Nat}

theorem findUint16Field_frame {n : Int} {key : String} {ep ep' : EpData}
    (h : findUint16Field n key ep epIcons = some ep') :
    ep'.endpointInfo = ep.endpointInfo ∧ ep'.endpointInfoLen = ep.endpointInfoLen ∧ ep'.state = ep.state := by
  simp only [epIcons, findUint16Field] at h
  cases hn : uint16SetFromIntval n with
  | none => simp [hn] at h
  | some icon =>
    simp only [hn] at h
    split_ifs at h <;> cases h <;> exact ⟨rfl, rfl, rfl⟩

theorem epMember_frame (s : EpData × Bool) (m : Member) :
    (epMember index s m).1.endpointInfo = (memberFrame index m).or s.1.endpointInfo ∧
      (epMember index s m).1.endpointInfoLen =
        ((memberFrame index m).map fun frame => UInt8.ofNat frame.length).getD s.1.endpointInfoLen ∧
      (epMember index s m).1.state = if memberDone m then .probeDone else s.1.state := by
  obtain ⟨key, v⟩ := m
  cases v with
  | object members =>
    by_cases hmdns : key = "epMDNSData"
    · subst hmdns
      simp [epMember, zgwParseEpMdnsData_eq, memberFrame, memberDone]
    by_cases hframes : key = "endpointInfoFrames" ∨ key = "supportedCCs"
    · have hnifs : epMember index s (key, .object members) = (zgwParseEpNifs (.object members) index s.1, s.2) := by
        obtain rfl | rfl := hframes <;> rfl
      rw [hnifs, zgwParseEpNifs_eq]
      simp only [memberFrame, hframes, if_true, nifPart, memberDone]
      split <;> exact ⟨rfl, rfl, rfl⟩
    · have hother : epMember index s (key, .object members) = s := by
        simp only [not_or] at hframes
        simp [epMember, hmdns, hframes]
      rw [hother]
      simp [memberFrame, hframes, memberDone]
  | int n =>
    simp only [epMember, memberFrame, memberDone]
    split
    · exact ⟨rfl, rfl, rfl⟩
    · cases hfield : findUint16Field (clampInt32 n) key s.1 epIcons with
      | none => exact ⟨rfl, rfl, rfl⟩
      | some ep => exact findUint16Field_frame hfield
  | string str =>
    by_cases hkey : key = "state"
    · subst hkey
      by_cases hdone : 4 ≤ str.length ∧ str.take 4 = ascii "DONE"
      · simp [epMember, memberFrame, memberDone, hdone]
      · simp [epMember, memberFrame, memberDone, hdone]
    · simp only [epMember, memberFrame, memberDone, hkey, if_false, false_and, decide_false, Bool.false_eq_true]
      split
      · split <;> exact ⟨rfl, rfl, rfl⟩
      · exact ⟨rfl, rfl, rfl⟩
  | _ => exact ⟨rfl, rfl, rfl⟩

theorem zgwParseZwnodeEp_spec {item : Json} {ep : EpData} (hindex : index < 256)
    (h : zgwParseZwnodeEp item index = some ep) :
    ep.endpointId.toNat = index ∧ ep.endpointInfo = documentedFrame index item ∧
      ep.endpointInfoLen = UInt8.ofNat ((documentedFrame index item).map List.length |>.getD 0) ∧
      ep.state = if statesDone item then .probeDone else .probeInfo := by
  have hfold : ∀ members : List Member, (members.foldl (epMember index) (EpData.init, false)).1.endpointInfo =
          (members.filterMap (memberFrame index)).getLast? ∧
        (members.foldl (epMember index) (EpData.init, false)).1.endpointInfoLen =
          UInt8.ofNat (((members.filterMap (memberFrame index)).getLast?.map List.length).getD 0) ∧
        (members.foldl (epMember index) (EpData.init, false)).1.state =
          if members.any memberDone then .probeDone else .probeInfo := by
    intro members
    induction members using List.reverseRecOn with
    | nil => exact ⟨rfl, rfl, rfl⟩
    | append_singleton members m ih =>
      obtain ⟨hinfo, hlen, hstate⟩ := epMember_frame (members.foldl (epMember index) (EpData.init, false)) m
      rw [List.foldl_append, List.foldl_cons, List.foldl_nil, hinfo, hlen, hstate, ih.1, ih.2.1, ih.2.2,
        List.filterMap_append, List.any_append]
      refine ⟨?_, ?_, ?_⟩
      · cases hm : memberFrame index m <;> simp only [List.filterMap_cons, hm, List.filterMap_nil, List.append_nil,
          List.getLast?_concat, Option.none_or, Option.some_or]
      · cases hm : memberFrame index m <;> simp only [List.filterMap_cons, hm, List.filterMap_nil, List.append_nil,
          List.getLast?_concat, Option.map_none, Option.map_some, Option.getD_none, Option.getD_some]
      · simp only [List.any_cons, List.any_nil, Bool.or_false]
        cases memberDone m <;> cases members.any memberDone <;> rfl
  obtain ⟨hinfo, hlen, hstate⟩ := hfold item.members
  simp only [zgwParseZwnodeEp] at h
  split at h
  · split at h
    · cases h
      exact ⟨‹_›, hinfo, hlen, hstate⟩
    · contradiction
  · cases h
    exact ⟨UInt8.toNat_ofNat_of_lt' hindex, hinfo, hlen, hstate⟩

end Frames

section Loop

def epsFrom : Nat → List Json → Option (List EpData)
  | _, [] => some []
  | ii, .object members :: items => do
    let ep ← zgwParseZwnodeEp (.object members) ii
    let eps ← epsFrom (ii + 1) items
    return ep :: eps
  | _, _ :: _ => none

def EpData.aggregated (ep : EpData) : Bool :=
  decide (ep.endpointAggrLen ≠ 0)

def AggregatedLast (eps : List EpData) : Prop :=
  eps.Pairwise fun ep next => ep.aggregated → next.aggregated

def HaveFrames (eps : List EpData) : Prop :=
  ∀ ep ∈ eps, ¬ep.aggregated → ep.endpointInfoLen ≠ 0

def NodeZwData.withEndpoints (node : NodeZwData) (eps : List EpData) : NodeZwData :=
  { node with
    endpoints := node.endpoints ++ eps
    nEndpoints := node.nEndpoints + UInt8.ofNat eps.length
    nAggEndpoints := node.nAggEndpoints + UInt8.ofNat (eps.countP EpData.aggregated) }

structure Keeps (s : EndpointLoop) (eps : List EpData) : Prop where
  last : AggregatedLast eps
  seen : s.aggrIndex < zwMaxNodes → ∀ ep ∈ eps, ep.aggregated
  frames : s.node.probeState.interviewState = .doNotInterview → HaveFrames eps

def InRange (s : EndpointLoop) (ii : Nat) : Prop :=
  s.aggrIndex < ii ∨ s.aggrIndex = zwMaxNodes

def EndpointLoop.Unflagged (s : EndpointLoop) : Prop :=
  s.node.probeState.nodePropertiesFlags &&& rdNodeFlagAddedByMe = 0

variable {s : EndpointLoop} {ii : Nat} {ep : EpData} {eps : List EpData} {items : List Json}

theorem withEndpoints_nil (node : NodeZwData) : node.withEndpoints [] = node := by
  simp [NodeZwData.withEndpoints]

theorem withEndpoints_cons (node : NodeZwData) (ep : EpData) (eps : List EpData) :
    node.withEndpoints (ep :: eps) = (node.withEndpoints [ep]).withEndpoints eps := by
  simp only [NodeZwData.withEndpoints, List.append_assoc, List.singleton_append, List.length_cons, List.countP_cons,
    List.length_nil, List.countP_nil, UInt8.add_assoc, ← UInt8.ofNat_add, Nat.zero_add, Nat.add_comm eps.length,
    Nat.add_comm (eps.countP _)]

def takeEndpoint (ii : Nat) (ep : EpData) (s : EndpointLoop) : EndpointLoop :=
  let s := checkEndpoint ii ep s
  if s.keepEp then
    { s with node := { s.node with endpoints := s.node.endpoints ++ [ep], nEndpoints := s.node.nEndpoints + 1 } }
  else s

def KeepsOne (s : EndpointLoop) (ii : Nat) (ep : EpData) : Prop :=
  s.keepEp = true ∧ (s.aggrIndex ≤ ii → ep.aggregated) ∧
    (s.node.probeState.interviewState = .doNotInterview → ¬ep.aggregated → ep.endpointInfoLen ≠ 0)

variable (ii ep) in
theorem takeEndpoint_cases (hs : s.Unflagged) : (KeepsOne s ii ep ∧ takeEndpoint ii ep s =
        ⟨s.node.withEndpoints [ep], if ep.aggregated then min s.aggrIndex ii else s.aggrIndex, true⟩) ∨
      (¬KeepsOne s ii ep ∧ (takeEndpoint ii ep s).keepEp = false ∧
        (takeEndpoint ii ep s).node.endpoints = s.node.endpoints ∧
        (takeEndpoint ii ep s).node.nEndpoints = s.node.nEndpoints) := by
  have hnode : s.node.withEndpoints [ep] = { s.node with
        endpoints := s.node.endpoints ++ [ep]
        nEndpoints := s.node.nEndpoints + 1
        nAggEndpoints := s.node.nAggEndpoints + if ep.aggregated then 1 else 0 } := by
    cases h : ep.aggregated <;> simp [NodeZwData.withEndpoints, h]
  rw [hnode]
  cases hkeep : s.keepEp with
  | false =>
    refine .inr ⟨fun h => by simp [KeepsOne, hkeep] at h, ?_⟩
    simp only [takeEndpoint, checkEndpoint]
    split_ifs <;> simp_all
  | true =>
    by_cases hagg : ep.endpointAggrLen = 0
    · have hnot : ep.aggregated = false := by simp [EpData.aggregated, hagg]
      by_cases hseen : s.aggrIndex ≤ ii
      · refine .inr ⟨fun h => by simp [h.2.1 hseen] at hnot, ?_⟩
        simp [takeEndpoint, checkEndpoint, hseen, hagg]
      by_cases hframe : ep.endpointInfoLen = 0 ∧ s.node.probeState.interviewState = .doNotInterview
      · refine .inr ⟨fun h => h.2.2 hframe.2 (by simp [hnot]) hframe.1, ?_⟩
        unfold EndpointLoop.Unflagged at hs
        simp [takeEndpoint, checkEndpoint, hseen, hagg, hframe, hs]
      · refine .inl ⟨⟨hkeep, fun h => absurd h hseen, fun hdone _ hlen => hframe ⟨hlen, hdone⟩⟩, ?_⟩
        simp [takeEndpoint, checkEndpoint, hseen, hagg, hframe, hkeep, hnot]
    · have haggregated : ep.aggregated = true := by simp [EpData.aggregated, hagg]
      have hpos : 0 < ep.endpointAggrLen := UInt8.pos_iff_ne_zero.mpr hagg
      refine .inl ⟨⟨hkeep, fun _ => haggregated, fun _ h => absurd haggregated h⟩, ?_⟩
      by_cases hseen : s.aggrIndex ≤ ii
      · simp [takeEndpoint, checkEndpoint, hseen, hagg, hkeep, haggregated]
      · simp [takeEndpoint, checkEndpoint, hseen, hpos, hkeep, haggregated]
        omega

theorem keeps_cons (hs : s.Unflagged) (hrange : InRange s ii) (hlt : ii < zwMaxNodes) (hone : KeepsOne s ii ep) :
    Keeps s (ep :: eps) ↔ Keeps (takeEndpoint ii ep s) eps := by
  obtain ⟨-, hnext⟩ | ⟨hnot, -⟩ := takeEndpoint_cases ii ep hs
  swap
  · exact absurd hone hnot
  rw [hnext]
  constructor
  · rintro ⟨hlast, hseen, hframes⟩
    refine ⟨hlast.of_cons, fun h => ?_, fun hdone next hmem => hframes hdone next (List.mem_cons_of_mem _ hmem)⟩
    intro next hmem
    cases hagg : ep.aggregated with
    | true => exact List.rel_of_pairwise_cons hlast hmem hagg
    | false =>
      simp only [hagg, Bool.false_eq_true, if_false] at h
      exact hseen h next (List.mem_cons_of_mem _ hmem)
  · rintro ⟨hlast, hseen, hframes⟩
    have hafter : ep.aggregated = true → ∀ next ∈ eps, next.aggregated := by
      intro hagg
      refine hseen ?_
      simp only [hagg, if_true]
      omega
    refine ⟨List.pairwise_cons.mpr ⟨fun next hmem hagg => hafter hagg next hmem, hlast⟩, fun h => ?_, fun hdone => ?_⟩
    · have hagg := hone.2.1 (by unfold InRange at hrange; omega)
      exact List.forall_mem_cons.mpr ⟨hagg, hafter hagg⟩
    · exact List.forall_mem_cons.mpr ⟨hone.2.2 hdone, hframes hdone⟩

theorem keeps_keepsOne (hkeep : s.keepEp = true) (hlt : ii < zwMaxNodes) (h : Keeps s (ep :: eps)) : KeepsOne s ii ep :=
  ⟨hkeep, fun hle => h.seen (by omega) ep (List.mem_cons_self ..), fun hdone => h.frames hdone ep (List.mem_cons_self ..)⟩

theorem takeEndpoint_inRange (hs : s.Unflagged) (hrange : InRange s ii) (hone : KeepsOne s ii ep) :
    (takeEndpoint ii ep s).Unflagged ∧ InRange (takeEndpoint ii ep s) (ii + 1) := by
  obtain ⟨-, hnext⟩ | ⟨hnot, -⟩ := takeEndpoint_cases ii ep hs
  · rw [hnext]
    refine ⟨hs, ?_⟩
    unfold InRange at hrange ⊢
    simp only
    split <;> omega
  · exact absurd hone hnot

theorem checkEndpoint_endpoints (ii : Nat) (ep : EpData) (s : EndpointLoop) :
    (checkEndpoint ii ep s).node.endpoints = s.node.endpoints ∧
      (checkEndpoint ii ep s).node.nEndpoints = s.node.nEndpoints := by
  unfold checkEndpoint
  split_ifs <;> exact ⟨rfl, rfl⟩

def Counted (s : EndpointLoop) : Prop :=
  s.node.nEndpoints = UInt8.ofNat s.node.endpoints.length

theorem takeEndpoint_length (ii : Nat) (ep : EpData) (hcount : Counted s) :
    (takeEndpoint ii ep s).node.endpoints.length ≤ s.node.endpoints.length + 1 ∧ Counted (takeEndpoint ii ep s) := by
  obtain ⟨hendpoints, hn⟩ := checkEndpoint_endpoints ii ep s
  unfold Counted at hcount ⊢
  simp only [takeEndpoint]
  split
  · simp [hendpoints, hn, hcount]
  · rw [hendpoints, hn]
    exact ⟨Nat.le_succ _, hcount⟩

variable (ii items) in
theorem endpointsLoop_length (hcount : Counted s) :
    (endpointsLoop ii items s).node.endpoints.length ≤ s.node.endpoints.length + items.length ∧
      Counted (endpointsLoop ii items s) := by
  induction items generalizing ii s with
  | nil => exact ⟨Nat.le_refl _, hcount⟩
  | cons item items ih =>
    have hskip := ih (ii + 1) hcount
    have hle : s.node.endpoints.length + items.length ≤ s.node.endpoints.length + (item :: items).length := by simp
    cases item with
    | object members =>
      cases hep : zgwParseZwnodeEp (.object members) ii with
      | none =>
        simp only [endpointsLoop, hep]
        exact ⟨hskip.1.trans hle, hskip.2⟩
      | some ep =>
        have htake := takeEndpoint_length ii ep hcount
        have hrest := ih (ii + 1) htake.2
        have hloop : endpointsLoop ii (.object members :: items) s =
            endpointsLoop (ii + 1) items (takeEndpoint ii ep s) := by
          simp only [endpointsLoop, hep]
          rfl
        rw [hloop]
        refine ⟨hrest.1.trans ?_, hrest.2⟩
        simp only [List.length_cons]
        omega
    | _ => exact ⟨hskip.1.trans hle, hskip.2⟩

variable (ii items) in
theorem endpointsLoop_cases (hs : s.Unflagged) (hcount : Counted s) (hrange : InRange s ii) (hkeep : s.keepEp = true)
    (hbound : ii + items.length ≤ zwMaxNodes) :
    (∃ eps, epsFrom ii items = some eps ∧ Keeps s eps ∧ (endpointsLoop ii items s).node = s.node.withEndpoints eps) ∨
      ((endpointsLoop ii items s).node.endpoints.length < s.node.endpoints.length + items.length ∧
        ∀ eps, epsFrom ii items = some eps → ¬Keeps s eps) := by
  induction items generalizing ii s with
  | nil =>
    have hnil : ∀ ep ∈ ([] : List EpData), ep.aggregated := fun ep h => absurd h List.not_mem_nil
    exact .inl ⟨[], rfl, ⟨.nil, fun _ => hnil, fun _ ep h => absurd h List.not_mem_nil⟩, (withEndpoints_nil _).symm⟩
  | cons item items ih =>
    simp only [List.length_cons] at hbound ⊢
    have hskip := (endpointsLoop_length (ii + 1) items hcount).1
    cases item with
    | object members =>
      cases hep : zgwParseZwnodeEp (.object members) ii with
      | none =>
        refine .inr ⟨?_, fun eps h => by simp [epsFrom, hep] at h⟩
        simp only [endpointsLoop, hep]
        omega
      | some ep =>
        have hloop : endpointsLoop ii (.object members :: items) s =
            endpointsLoop (ii + 1) items (takeEndpoint ii ep s) := by
          simp only [endpointsLoop, hep]
          rfl
        have hfrom : ∀ eps, epsFrom ii (.object members :: items) = some eps →
            ∃ rest, epsFrom (ii + 1) items = some rest ∧ eps = ep :: rest := by
          intro eps h
          simp only [epsFrom, hep, Option.bind_eq_bind, Option.bind_some, Option.bind_eq_some_iff] at h
          obtain ⟨rest, hrest, heps⟩ := h
          exact ⟨rest, hrest, (Option.some.inj heps).symm⟩
        rw [hloop]
        obtain ⟨hone, hnext⟩ | ⟨hnot, hstop, hsame, -⟩ := takeEndpoint_cases ii ep hs
        · obtain ⟨hs', hrange'⟩ := takeEndpoint_inRange hs hrange hone
          have htake := takeEndpoint_length ii ep hcount
          obtain ⟨eps, heps, hkeeps, hnode⟩ | ⟨hlt, hno⟩ := ih _ hs' htake.2 hrange' (by rw [hnext]) (by omega)
          · refine .inl ⟨ep :: eps, by simp [epsFrom, hep, heps], (keeps_cons hs hrange (by omega) hone).mpr hkeeps, ?_⟩
            rw [hnode, withEndpoints_cons, hnext]
          · refine .inr ⟨by omega, fun eps h hkeeps => ?_⟩
            obtain ⟨rest, hrest, rfl⟩ := hfrom eps h
            exact hno rest hrest ((keeps_cons hs hrange (by omega) hone).mp hkeeps)
        · have hlen := (endpointsLoop_length (ii + 1) items (takeEndpoint_length ii ep hcount).2).1
          rw [hsame] at hlen
          refine .inr ⟨by omega, fun eps h hkeeps => ?_⟩
          obtain ⟨rest, -, rfl⟩ := hfrom eps h
          exact hnot (keeps_keepsOne hkeep (by omega) hkeeps)
    | _ => exact .inr ⟨Nat.lt_succ_of_le hskip, fun eps h => by simp [epsFrom] at h⟩

theorem length_epsFrom (h : epsFrom ii items = some eps) : eps.length = items.length := by
  induction items generalizing ii eps with
  | nil =>
    cases h
    rfl
  | cons item items ih =>
    cases item with
    | object members =>
      simp only [epsFrom, Option.bind_eq_bind, Option.bind_eq_some_iff] at h
      obtain ⟨ep, -, rest, hrest, heps⟩ := h
      cases heps
      simp [ih hrest]
    | _ => simp [epsFrom] at h

/-- The endpoints of the array, when they are imported: there are at most 255 objects, each of them gives one,
the aggregated ones are last, and in a node that is done no frame is missing. -/
structure EndpointsOf (arr : List Json) (done : Prop) (eps : List EpData) : Prop where
  length_le : arr.length ≤ 255
  parsed : epsFrom 0 arr = some eps
  last : AggregatedLast eps
  frames : done → HaveFrames eps

theorem zgwParseZwnodeEndpoints_cases (arr : List Json) (node : NodeZwData)
    (hflags : node.probeState.nodePropertiesFlags &&& rdNodeFlagAddedByMe = 0) (hendpoints : node.endpoints = [])
    (hn : node.nEndpoints = 0) :
    (∃ eps, EndpointsOf arr (node.probeState.interviewState = .doNotInterview) eps ∧
        zgwParseZwnodeEndpoints arr node = (node.withEndpoints eps, true)) ∨
      ((zgwParseZwnodeEndpoints arr node).2 = false ∧
        ∀ eps, ¬EndpointsOf arr (node.probeState.interviewState = .doNotInterview) eps) := by
  have hcount : Counted ⟨node, zwMaxNodes, true⟩ := by
    unfold Counted
    rw [hn, hendpoints]
    rfl
  obtain ⟨hle, hcounted⟩ := endpointsLoop_length 0 arr hcount
  unfold Counted at hcounted
  simp only [hendpoints, List.length_nil, Nat.zero_add] at hle
  by_cases hlength : arr.length ≤ 255
  swap
  · refine .inr ⟨?_, fun eps h => hlength h.length_le⟩
    have hbyte := (endpointsLoop 0 arr ⟨node, zwMaxNodes, true⟩).node.nEndpoints.toNat_lt
    exact decide_eq_false (by omega)
  obtain ⟨eps, heps, hkeeps, hnode⟩ | ⟨hlt, hno⟩ := endpointsLoop_cases 0 arr
    (s := ⟨node, zwMaxNodes, true⟩) hflags hcount (.inr rfl) rfl (by unfold zwMaxNodes; omega)
  · refine .inl ⟨eps, ⟨hlength, heps, hkeeps.last, hkeeps.frames⟩, ?_⟩
    have hlen := length_epsFrom heps
    simp only [zgwParseZwnodeEndpoints, hnode, Prod.mk.injEq, true_and, NodeZwData.withEndpoints, hn, hlen,
      UInt8.zero_add, decide_eq_true_eq]
    exact UInt8.toNat_ofNat_of_lt' (Nat.lt_of_le_of_lt hlength (by decide))
  · simp only [hendpoints, List.length_nil, Nat.zero_add] at hlt
    refine .inr ⟨?_, fun eps h => hno eps h.parsed ⟨h.last, fun h => absurd h (Nat.lt_irrefl _), h.frames⟩⟩
    simp only [zgwParseZwnodeEndpoints, decide_eq_false_iff_not, hcounted]
    rw [UInt8.toNat_ofNat_of_lt' (Nat.lt_of_le_of_lt (hlt.le.trans hlength) (by decide))]
    omega

end Loop

section Reset

variable {eps : List EpData}

theorem resetEndpoints_state : (∀ ep ∈ resetEndpoints eps, ep.state = .probeInfo) ↔
      ∀ i ep, eps[2 * i + 1]? = some ep → ep.state = .probeInfo := by
  induction eps using resetEndpoints.induct with
  | case1 => simp [resetEndpoints]
  | case2 ep =>
    simp [resetEndpoints]
  | case3 ep next eps ih =>
    simp only [resetEndpoints, List.forall_mem_cons, true_and, ih]
    constructor
    · rintro ⟨hnext, heps⟩ (_ | i) ep h
      · cases h
        exact hnext
      · exact heps i ep h
    · exact fun h => ⟨h 0 next rfl, fun i ep hep => h (i + 1) ep hep⟩

theorem resetEndpoints_map {β : Type} {f : EpData → β} (hf : ∀ ep, f { ep with state := .probeInfo } = f ep) :
    (resetEndpoints eps).map f = eps.map f := by
  induction eps using resetEndpoints.induct with
  | case1 => rfl
  | case2 ep => simp [resetEndpoints, hf]
  | case3 ep next eps ih => simp [resetEndpoints, hf, ih]

end Reset

section Node

def freshNode (uid : NodeUid) (zwNodeData : ZwNodeData) : NodeData :=
  { NodeData.init with
    uid := uid
    gwData := { NodeZwData.init with zwNodeData := zwNodeData } }

def readZwnode (zwnode : Json) (node : NodeData) (ctrl : Option ZwController) : ZwnodeRead :=
  identifyZwnode (zwnode.members.foldl zwnodeMember ⟨node.gwData, none, false, false, true, 0⟩) node.uid ctrl

structure Unread (s : ZwnodeRead) : Prop where
  flags : s.node.probeState.nodePropertiesFlags &&& rdNodeFlagAddedByMe = 0
  endpoints : s.node.endpoints = []
  nEndpoints : s.node.nEndpoints = 0
  array : ∀ arr, s.endpointArray = some arr → arr ≠ []

theorem probeStateMember_flags {p : ProbeState × Bool} (m : Member)
    (h : p.1.nodePropertiesFlags &&& rdNodeFlagAddedByMe = 0) :
    (probeStateMember p m).1.nodePropertiesFlags &&& rdNodeFlagAddedByMe = 0 := by
  have hportable : (p.1.nodePropertiesFlags ||| rdNodeFlagPortable) &&& rdNodeFlagAddedByMe = 0 := by
    have hor : rdNodeFlagAddedByMe &&& (p.1.nodePropertiesFlags ||| rdNodeFlagPortable) =
        rdNodeFlagAddedByMe &&& p.1.nodePropertiesFlags ||| rdNodeFlagAddedByMe &&& rdNodeFlagPortable :=
      UInt16.toBitVec_inj.mp BitVec.and_or_distrib_left
    rw [UInt16.and_comm, hor, UInt16.and_comm, h]
    rfl
  obtain ⟨key, v⟩ := m
  cases v with
  | string str =>
    simp only [probeStateMember]
    split_ifs <;> first | exact h | exact hportable
  | int n | array items | bool b =>
    simp only [probeStateMember]
    split <;> exact h
  | _ => exact h

theorem unread_zwnodeMember {s : ZwnodeRead} (m : Member) (h : Unread s) : Unread (zwnodeMember s m) := by
  obtain ⟨key, v⟩ := m
  have hobject := h.array
  cases v with
  | object members =>
    simp only [zwnodeMember]
    split_ifs
    · exact ⟨h.flags, h.endpoints, h.nEndpoints, h.array⟩
    · refine ⟨?_, h.endpoints, h.nEndpoints, h.array⟩
      have hfold : ∀ (ms : List Member) (p : ProbeState × Bool), p.1.nodePropertiesFlags &&& rdNodeFlagAddedByMe = 0 →
          (ms.foldl probeStateMember p).1.nodePropertiesFlags &&& rdNodeFlagAddedByMe = 0 := by
        intro ms
        induction ms with
        | nil => exact fun p hp => hp
        | cons m ms ih => exact fun p hp => ih _ (probeStateMember_flags m hp)
      exact hfold _ _ h.flags
    · exact ⟨h.flags, h.endpoints, h.nEndpoints, h.array⟩
    · exact ⟨h.flags, h.endpoints, h.nEndpoints, h.array⟩
    · exact h
  | array items =>
    simp only [zwnodeMember]
    split_ifs with hitems
    · refine ⟨h.flags, h.endpoints, h.nEndpoints, fun arr harr => ?_⟩
      cases harr
      exact List.ne_nil_of_length_pos hitems.1
    · exact h
  | int n | string str =>
    simp only [zwnodeMember]
    split_ifs <;> exact ⟨h.flags, h.endpoints, h.nEndpoints, h.array⟩
  | _ => exact h

theorem unread_identifyZwnode {s : ZwnodeRead} {uid : NodeUid} {ctrl : Option ZwController} (h : Unread s) :
    Unread (identifyZwnode s uid ctrl) := by
  have hsame : ∀ (nodeId : NodeId) (keepNode : Bool), Unread { s with nodeId := nodeId, keepNode := keepNode } :=
    fun _ _ => ⟨h.flags, h.endpoints, h.nEndpoints, h.array⟩
  simp only [identifyZwnode]
  generalize (if s.nodeId = 0 then _ else s.nodeId) = nodeId
  split
  · exact hsame _ _
  · cases ctrl with
    | none => exact hsame _ _
    | some ctrl =>
      simp only
      split
      · exact hsame _ _
      · exact ⟨h.flags, h.endpoints, h.nEndpoints, h.array⟩

theorem unread_readZwnode (zwnode : Json) (uid : NodeUid) (zwNodeData : ZwNodeData) (ctrl : Option ZwController) :
    Unread (readZwnode zwnode (freshNode uid zwNodeData) ctrl) := by
  have hfold : ∀ (ms : List Member) (s : ZwnodeRead), Unread s → Unread (ms.foldl zwnodeMember s) := by
    intro ms
    induction ms with
    | nil => exact fun s h => h
    | cons m ms ih => exact fun s h => ih _ (unread_zwnodeMember m h)
  have hread := hfold zwnode.members ⟨(freshNode uid zwNodeData).gwData, none, false, false, true, 0⟩
    ⟨UInt16.zero_and, rfl, rfl, fun arr h => by contradiction⟩
  exact unread_identifyZwnode hread

variable (s : ZwnodeRead) (myNodeId : UInt8) (arr : List Json) (eps : List EpData)

def versionsIllegal (p : ProbeState) : Bool :=
  p.nodeIsZwsProbed && p.nodeVersionCapAndZwaveSw &&& 0x03 ≠ 0x03

/-- A node that is imported, with its endpoints; without granted keys it is interviewed again. -/
structure Importable : Prop where
  keepNode : s.keepNode = true
  network : s.nodeId.toNat ≠ myNodeId.toNat
  array : s.endpointArray = some arr
  endpoints : EndpointsOf arr (s.node.probeState.interviewState = .doNotInterview) eps
  complete : s.foundKeys = true → s.node.probeState.interviewState ≠ .interview →
    s.node.probeState.interviewState = .doNotInterview ∧ s.foundProdId = true ∧
      versionsIllegal s.node.probeState = false

/-- A node in state DONE with granted keys that has all it needs but the frame of an endpoint. -/
structure OnlyFrameMissing : Prop where
  keepNode : s.keepNode = true
  network : s.nodeId.toNat ≠ myNodeId.toNat
  array : s.endpointArray = some arr
  endpoints : EndpointsOf arr False eps
  done : s.node.probeState.interviewState = .doNotInterview
  foundKeys : s.foundKeys = true
  foundProdId : s.foundProdId = true
  versions : versionsIllegal s.node.probeState = false
  missing : ∃ ep ∈ eps, ¬ep.aggregated ∧ ep.endpointInfo = none

def importedNode : NodeZwData :=
  (finishNetworkNode ({ s.node with nAggEndpoints := 0 }.withEndpoints eps) s.foundKeys s.foundProdId).1

variable {s myNodeId arr eps}

theorem EndpointsOf.unique {done done' : Prop} {eps eps' : List EpData} (h : EndpointsOf arr done eps)
    (h' : EndpointsOf arr done' eps') : eps = eps' :=
  Option.some.inj (h.parsed.symm.trans h'.parsed)

theorem finishNetworkNode_keepNode {node : NodeZwData} (foundKeys foundProdId : Bool) (hn : node.nEndpoints ≠ 0) :
    (finishNetworkNode node foundKeys foundProdId).2 = true ↔
      (foundKeys = true → node.probeState.interviewState ≠ .interview →
        node.probeState.interviewState = .doNotInterview ∧ foundProdId = true ∧
          versionsIllegal node.probeState = false) := by
  cases foundKeys with
  | false => simp [finishNetworkNode]
  | true =>
    have himp : ∀ p q : Prop, (¬p ∨ q) ↔ (p → q) := fun p q => imp_iff_not_or.symm
    cases hstate : node.probeState.interviewState <;>
      simp [finishNetworkNode, hstate, hn, versionsIllegal, ← himp]

variable (myNodeId) in
theorem zgwParseZwnode_cases {zwnode : Json} {node : NodeData} {ctrl : Option ZwController}
    (hunread : Unread (readZwnode zwnode node ctrl)) :
    (∃ arr eps, Importable (readZwnode zwnode node ctrl) myNodeId arr eps ∧
        zgwParseZwnode zwnode node ctrl myNodeId = ⟨importedNode (readZwnode zwnode node ctrl) eps, none, true⟩) ∨
      (¬((zgwParseZwnode zwnode node ctrl myNodeId).keepNode = true ∧
          (readZwnode zwnode node ctrl).nodeId.toNat ≠ myNodeId.toNat) ∧
        ∀ arr eps, ¬Importable (readZwnode zwnode node ctrl) myNodeId arr eps) := by
  have hparse : zgwParseZwnode zwnode node ctrl myNodeId = if (readZwnode zwnode node ctrl).keepNode then
      let r := importEndpoints (readZwnode zwnode node ctrl) myNodeId
      if r.keepNode then
        let f :=
          if (readZwnode zwnode node ctrl).nodeId.toNat = myNodeId.toNat then finishGateway r.node
          else finishNetworkNode r.node (readZwnode zwnode node ctrl).foundKeys (readZwnode zwnode node ctrl).foundProdId
        ⟨f.1, r.assignedKeys, f.2⟩
      else r
    else ⟨(readZwnode zwnode node ctrl).node, none, false⟩ := rfl
  rw [hparse]
  generalize readZwnode zwnode node ctrl = s at hunread ⊢
  by_cases hkeep : s.keepNode = true
  swap
  · exact .inr ⟨by simp [hkeep], fun arr eps h => hkeep h.keepNode⟩
  by_cases hnetwork : s.nodeId.toNat = myNodeId.toNat
  · exact .inr ⟨fun h => h.2 hnetwork, fun arr eps h => h.network hnetwork⟩
  cases harray : s.endpointArray with
  | none =>
    refine .inr ⟨by simp [hkeep, importEndpoints, harray, hnetwork], fun arr eps h => ?_⟩
    have hsome := h.array
    rw [harray] at hsome
    contradiction
  | some arr =>
    have hany : ∀ {arr' eps}, Importable s myNodeId arr' eps → Importable s myNodeId arr eps := by
      intro arr' eps h
      cases harray.symm.trans h.array
      exact h
    obtain ⟨eps, heps, hresult⟩ | ⟨hresult, hno⟩ := zgwParseZwnodeEndpoints_cases arr
      { s.node with nAggEndpoints := 0 } hunread.flags hunread.endpoints hunread.nEndpoints
    · have hn : (NodeZwData.withEndpoints { s.node with nAggEndpoints := 0 } eps).nEndpoints ≠ 0 := by
        have hlen := length_epsFrom heps.parsed
        have hpos := List.length_pos_iff.mpr (hunread.array arr harray)
        have hle := heps.length_le
        rw [NodeZwData.withEndpoints, hunread.nEndpoints, hlen, UInt8.zero_add, ← UInt8.toNat_inj.ne,
          UInt8.toNat_ofNat_of_lt' (Nat.lt_of_le_of_lt hle (by decide))]
        exact Nat.pos_iff_ne_zero.mp hpos
      have hkeepNode := finishNetworkNode_keepNode s.foundKeys s.foundProdId hn
      by_cases hcomplete : (finishNetworkNode (NodeZwData.withEndpoints { s.node with nAggEndpoints := 0 } eps)
          s.foundKeys s.foundProdId).2 = true
      · refine .inl ⟨arr, eps, ⟨hkeep, hnetwork, harray, heps, hkeepNode.mp hcomplete⟩, ?_⟩
        simp [hkeep, importEndpoints, harray, hnetwork, hresult, hcomplete, importedNode]
      · refine .inr ⟨by simp [hkeep, importEndpoints, harray, hnetwork, hresult, hcomplete], fun arr' eps' h => ?_⟩
        exact hcomplete (hkeepNode.mpr (hany h).complete)
    · refine .inr ⟨by simp [hkeep, importEndpoints, harray, hnetwork, hresult], fun arr' eps' h => ?_⟩
      exact hno eps' (hany h).endpoints

structure Consistent (arr : List Json) (node : NodeZwData) : Prop where
  nEndpoints : node.nEndpoints.toNat = node.endpoints.length
  length : node.endpoints.length = arr.length
  ids : ∀ i (ep : EpData), node.endpoints[i]? = some ep → ep.endpointId.toNat = i
  last : AggregatedLast node.endpoints
  nAggEndpoints : node.nAggEndpoints.toNat = node.endpoints.countP EpData.aggregated
  frames : ∀ i (ep : EpData) item, node.endpoints[i]? = some ep → arr[i]? = some item →
    ep.endpointInfo = documentedFrame i item ∧
      ep.endpointInfoLen.toNat = ((documentedFrame i item).map List.length).getD 0
  interviewed : node.probeState.interviewState = .interview →
    node.probeState.probeFlags = rdNodeProbeNeverStarted ∧ ∀ ep ∈ node.endpoints, ep.state = .probeInfo
  completed : node.probeState.interviewState ≠ .interview → node.probeState.probeFlags = rdNodeFlagProbeHasCompleted ∧
      ∀ ep ∈ node.endpoints, ¬ep.aggregated → ep.endpointInfo ≠ none

/-- A network node is consistent when it is imported, and imported for an interview when only a frame is
missing. -/
structure Restored (s : ZwnodeRead) (myNodeId : UInt8) (r : ZwnodeResult) : Prop where
  consistent : r.keepNode = true → s.nodeId.toNat ≠ myNodeId.toNat →
    ∃ arr, s.endpointArray = some arr ∧ Consistent arr r.node
  interviewed : ∀ arr eps, OnlyFrameMissing s myNodeId arr eps →
    r.keepNode = true ∧ r.node.probeState.interviewState = .interview

def interviewedAgain (s : ZwnodeRead) : Bool :=
  !s.foundKeys || decide (s.node.probeState.interviewState = .interview)

/-- The frames of the objects have at most 255 bytes. -/
def FramesShort (arr : List Json) : Prop :=
  ∀ i item, arr[i]? = some item → ((documentedFrame i item).map List.length).getD 0 ≤ 255

/-- No object at an odd index states DONE. -/
def OddNotDone (arr : List Json) : Prop :=
  ∀ i item, arr[2 * i + 1]? = some item → statesDone item = false

def EpData.stateless (ep : EpData) : EpData :=
  { ep with state := .probeInfo }

theorem epsFrom_getElem? {ii i : Nat} {items : List Json} {item : Json} {ep : EpData} (h : epsFrom ii items = some eps)
    (hep : eps[i]? = some ep) (hitem : items[i]? = some item) : zgwParseZwnodeEp item (ii + i) = some ep := by
  induction items generalizing ii eps i with
  | nil => simp at hitem
  | cons first items ih =>
    cases first with
    | object members =>
      simp only [epsFrom, Option.bind_eq_bind, Option.bind_eq_some_iff] at h
      obtain ⟨ep', hep', rest, hrest, heps⟩ := h
      cases heps
      cases i with
      | zero =>
        cases hep
        cases hitem
        exact hep'
      | succ i =>
        rw [← Nat.add_assoc, Nat.add_right_comm]
        exact ih hrest hep hitem
    | _ => simp [epsFrom] at h

theorem EndpointsOf.parsed_getElem? {done : Prop} (h : EndpointsOf arr done eps) {i : Nat} {ep : EpData} {item : Json}
    (hep : eps[i]? = some ep) (hitem : arr[i]? = some item) :
    ep.endpointId.toNat = i ∧ ep.endpointInfo = documentedFrame i item ∧
      ep.endpointInfoLen = UInt8.ofNat ((documentedFrame i item).map List.length |>.getD 0) ∧
      ep.state = if statesDone item then .probeDone else .probeInfo := by
  have hparse := epsFrom_getElem? h.parsed hep hitem
  rw [Nat.zero_add] at hparse
  have hlt := (List.getElem?_eq_some_iff.mp hitem).1
  have hle := h.length_le
  exact zgwParseZwnodeEp_spec (by omega) hparse

variable (eps) in
theorem imported_interviewed (hunread : Unread s) (h : interviewedAgain s = true) :
    (importedNode s eps).endpoints = resetEndpoints eps ∧ (importedNode s eps).nEndpoints = UInt8.ofNat eps.length ∧
      (importedNode s eps).nAggEndpoints = UInt8.ofNat (eps.countP EpData.aggregated) ∧
      (importedNode s eps).probeState.interviewState = .interview ∧
      (importedNode s eps).probeState.probeFlags = rdNodeProbeNeverStarted := by
  have hendpoints := hunread.endpoints
  have hn := hunread.nEndpoints
  cases hkeys : s.foundKeys with
  | false => simp [importedNode, finishNetworkNode, NodeZwData.withEndpoints, hkeys, hendpoints, hn]
  | true =>
    simp only [interviewedAgain, hkeys, Bool.not_true, Bool.false_or, decide_eq_true_eq] at h
    simp [importedNode, finishNetworkNode, NodeZwData.withEndpoints, hkeys, h, hendpoints, hn]

theorem imported_completed (hunread : Unread s) (himportable : Importable s myNodeId arr eps)
    (h : interviewedAgain s = false) :
    s.node.probeState.interviewState = .doNotInterview ∧
      (importedNode s eps).endpoints = eps ∧ (importedNode s eps).nEndpoints = UInt8.ofNat eps.length ∧
      (importedNode s eps).nAggEndpoints = UInt8.ofNat (eps.countP EpData.aggregated) ∧
      (importedNode s eps).probeState.interviewState = .doNotInterview ∧
      (importedNode s eps).probeState.probeFlags = rdNodeFlagProbeHasCompleted := by
  simp only [interviewedAgain, Bool.or_eq_false_iff, Bool.not_eq_false', decide_eq_false_iff_not] at h
  have hdone := (himportable.complete h.1 h.2).1
  refine ⟨hdone, ?_⟩
  simp [importedNode, finishNetworkNode, NodeZwData.withEndpoints, h.1, hdone, hunread.endpoints, hunread.nEndpoints]

structure SameEndpoints (arr : List Json) (eps endpoints : List EpData) : Prop where
  length : endpoints.length = arr.length
  last : AggregatedLast endpoints
  count : endpoints.countP EpData.aggregated = eps.countP EpData.aggregated
  getElem? : ∀ i (ep : EpData) item, endpoints[i]? = some ep → arr[i]? = some item →
    ep.endpointId.toNat = i ∧ ep.endpointInfo = documentedFrame i item ∧
      ep.endpointInfoLen = UInt8.ofNat ((documentedFrame i item).map List.length |>.getD 0)

theorem sameEndpoints {endpoints : List EpData} {done : Prop} (h : EndpointsOf arr done eps)
    (hmap : endpoints.map EpData.stateless = eps.map EpData.stateless) : SameEndpoints arr eps endpoints where
  length := by
    have hlength := congrArg List.length hmap
    rw [List.length_map, List.length_map] at hlength
    exact hlength.trans (length_epsFrom h.parsed)
  last := by
    have hlast : AggregatedLast (eps.map EpData.stateless) := List.pairwise_map.mpr h.last
    rw [← hmap] at hlast
    exact List.pairwise_map.mp hlast
  count := by
    have hcount := congrArg (List.countP EpData.aggregated) hmap
    rwa [List.countP_map, List.countP_map] at hcount
  getElem? := by
    intro i ep item hep hitem
    have hsame := congrArg (·[i]?) hmap
    simp only [List.getElem?_map, hep, Option.map_some] at hsame
    obtain ⟨parsed, hparsed, heq⟩ := Option.map_eq_some_iff.mp hsame.symm
    obtain ⟨hid, hinfo, hlen, -⟩ := h.parsed_getElem? hparsed hitem
    have hfields := EpData.mk.inj heq
    exact ⟨hfields.2.2.2.2.2.2.1 ▸ hid, hfields.2.2.2.2.2.2.2.2.2.2.2.1 ▸ hinfo, hfields.2.2.2.2.1 ▸ hlen⟩

theorem consistent_iff (hunread : Unread s) (h : Importable s myNodeId arr eps) :
    Consistent arr (importedNode s eps) ↔ FramesShort arr ∧ (interviewedAgain s = true → OddNotDone arr) := by
  have hle := h.endpoints.length_le
  have hsmall : ∀ n, n ≤ 255 → (UInt8.ofNat n).toNat = n := fun n hn =>
    UInt8.toNat_ofNat_of_lt' (Nat.lt_of_le_of_lt hn (by decide))
  have hsmall' : ∀ n, (UInt8.ofNat n).toNat = n → n ≤ 255 := fun n hn =>
    hn ▸ Nat.le_of_lt_succ (UInt8.ofNat n).toNat_lt
  have hlength : eps.length = arr.length := length_epsFrom h.endpoints.parsed
  have hcountP := List.countP_le_length (p := EpData.aggregated) (l := eps)
  have hsame : SameEndpoints arr eps (importedNode s eps).endpoints := by
    refine sameEndpoints h.endpoints ?_
    cases hagain : interviewedAgain s with
    | true => rw [(imported_interviewed _ hunread hagain).1, resetEndpoints_map fun _ => rfl]
    | false => rw [(imported_completed hunread h hagain).2.1]
  have hcounts : (importedNode s eps).nEndpoints = UInt8.ofNat eps.length ∧
      (importedNode s eps).nAggEndpoints = UInt8.ofNat (eps.countP EpData.aggregated) := by
    cases hagain : interviewedAgain s with
    | true => exact ⟨(imported_interviewed _ hunread hagain).2.1, (imported_interviewed _ hunread hagain).2.2.1⟩
    | false => exact ⟨(imported_completed hunread h hagain).2.2.1, (imported_completed hunread h hagain).2.2.2.1⟩
  constructor
  · intro hconsistent
    refine ⟨fun i item hitem => ?_, fun hagain i item hitem => ?_⟩
    · have hlt := (List.getElem?_eq_some_iff.mp hitem).1
      rw [← hsame.length] at hlt
      have hep := List.getElem?_eq_getElem hlt
      have hexact := (hconsistent.frames i _ item hep hitem).2
      rw [(hsame.getElem? i _ item hep hitem).2.2] at hexact
      exact hsmall' _ hexact
    · obtain ⟨hendpoints, -, -, hstate, -⟩ := imported_interviewed eps hunread hagain
      have hstates := (hconsistent.interviewed hstate).2
      rw [hendpoints] at hstates
      have hlt := (List.getElem?_eq_some_iff.mp hitem).1
      rw [← hlength] at hlt
      have hep := List.getElem?_eq_getElem hlt
      have hprobe := resetEndpoints_state.mp hstates i _ hep
      rw [(h.endpoints.parsed_getElem? hep hitem).2.2.2] at hprobe
      cases hdone : statesDone item with
      | false => rfl
      | true => simp [hdone] at hprobe
  · rintro ⟨hshort, hodd⟩
    have hitem : ∀ {i : Nat} {ep : EpData}, (importedNode s eps).endpoints[i]? = some ep → ∃ item, arr[i]? = some item := by
      intro i ep hep
      have hlt := (List.getElem?_eq_some_iff.mp hep).1
      rw [hsame.length] at hlt
      exact ⟨arr[i], List.getElem?_eq_getElem hlt⟩
    refine ⟨?_, hsame.length, fun i ep hep => ?_, hsame.last, ?_, fun i ep item hep hitem => ?_, fun hstate => ?_,
      fun hstate => ?_⟩
    · rw [hcounts.1, hsmall _ (hlength ▸ hle), hsame.length, hlength]
    · obtain ⟨item, hitem⟩ := hitem hep
      exact (hsame.getElem? i ep item hep hitem).1
    · rw [hcounts.2, hsmall _ (by omega), hsame.count]
    · obtain ⟨-, hinfo, hlen⟩ := hsame.getElem? i ep item hep hitem
      exact ⟨hinfo, hlen ▸ hsmall _ (hshort i item hitem)⟩
    · cases hagain : interviewedAgain s with
      | false =>
        have hdone := (imported_completed hunread h hagain).2.2.2.2.1
        exact absurd (hstate.symm.trans hdone) (by decide)
      | true =>
        obtain ⟨hendpoints, -, -, -, hflags⟩ := imported_interviewed eps hunread hagain
        refine ⟨hflags, ?_⟩
        rw [hendpoints]
        refine resetEndpoints_state.mpr fun i ep hep => ?_
        have hlt := (List.getElem?_eq_some_iff.mp hep).1
        rw [hlength] at hlt
        have hitem := List.getElem?_eq_getElem hlt
        rw [(h.endpoints.parsed_getElem? hep hitem).2.2.2, hodd hagain i _ hitem]
        rfl
    · cases hagain : interviewedAgain s with
      | true => exact absurd (imported_interviewed _ hunread hagain).2.2.2.1 hstate
      | false =>
        obtain ⟨hdone, hendpoints, -, -, -, hflags⟩ := imported_completed hunread h hagain
        refine ⟨hflags, fun ep hmem hagg hnone => ?_⟩
        obtain ⟨i, hi⟩ := List.getElem?_of_mem hmem
        obtain ⟨item, hitem⟩ := hitem hi
        obtain ⟨-, hinfo, hlen⟩ := hsame.getElem? i ep item hi hitem
        rw [hendpoints] at hmem
        refine h.endpoints.frames hdone ep hmem hagg ?_
        rw [hlen, ← hinfo, hnone]
        rfl

/-- The promises about the nodes of a backup are kept exactly for the objects in which no frame is all that is
missing, and which, if they are imported, have frames of at most 255 bytes and, if the node is interviewed
again, state DONE for no endpoint at an odd index. -/
theorem zgwParseZwnode_restored_iff (zwnode : Json) (uid : NodeUid) (zwNodeData : ZwNodeData)
    (ctrl : Option ZwController) (myNodeId : UInt8) :
    Restored (readZwnode zwnode (freshNode uid zwNodeData) ctrl) myNodeId
        (zgwParseZwnode zwnode (freshNode uid zwNodeData) ctrl myNodeId) ↔
      (∀ arr eps, ¬OnlyFrameMissing (readZwnode zwnode (freshNode uid zwNodeData) ctrl) myNodeId arr eps) ∧
        ∀ arr eps, Importable (readZwnode zwnode (freshNode uid zwNodeData) ctrl) myNodeId arr eps → FramesShort arr ∧
            (interviewedAgain (readZwnode zwnode (freshNode uid zwNodeData) ctrl) = true → OddNotDone arr) := by
  have hunread := unread_readZwnode zwnode uid zwNodeData ctrl
  have hcases := zgwParseZwnode_cases myNodeId hunread
  generalize zgwParseZwnode zwnode (freshNode uid zwNodeData) ctrl myNodeId = r at hcases ⊢
  generalize readZwnode zwnode (freshNode uid zwNodeData) ctrl = s at hunread hcases ⊢
  have hmissing : ∀ {arr eps arr' eps'}, OnlyFrameMissing s myNodeId arr eps → ¬Importable s myNodeId arr' eps' := by
    intro arr eps arr' eps' hmiss himp
    cases hmiss.array.symm.trans himp.array
    cases hmiss.endpoints.unique himp.endpoints
    obtain ⟨ep, hep, hagg, hnone⟩ := hmiss.missing
    refine himp.endpoints.frames hmiss.done ep hep hagg ?_
    obtain ⟨i, hi⟩ := List.getElem?_of_mem hep
    have hlt := (List.getElem?_eq_some_iff.mp hi).1
    rw [length_epsFrom hmiss.endpoints.parsed] at hlt
    obtain ⟨-, hinfo, hlen, -⟩ := hmiss.endpoints.parsed_getElem? hi (List.getElem?_eq_getElem hlt)
    rw [hlen, ← hinfo, hnone]
    rfl
  obtain ⟨arr, eps, himp, rfl⟩ | ⟨hrejected, hno⟩ := hcases
  · constructor
    · refine fun h => ⟨fun arr' eps' hmiss => hmissing hmiss himp, fun arr' eps' himp' => ?_⟩
      cases himp.array.symm.trans himp'.array
      obtain ⟨arr', harr', hconsistent⟩ := h.consistent rfl himp.network
      cases himp.array.symm.trans harr'
      exact (consistent_iff hunread himp).mp hconsistent
    · rintro ⟨hnone, hsound⟩
      exact ⟨fun _ _ => ⟨arr, himp.array, (consistent_iff hunread himp).mpr (hsound arr eps himp)⟩,
        fun arr' eps' hmiss => absurd hmiss (hnone arr' eps')⟩
  · constructor
    · refine fun h => ⟨fun arr eps hmiss => ?_, fun arr eps himp => absurd himp (hno arr eps)⟩
      exact hrejected ⟨(h.interviewed arr eps hmiss).1, hmiss.network⟩
    · rintro ⟨hnone, -⟩
      exact ⟨fun hkeep hnetwork => absurd ⟨hkeep, hnetwork⟩ hrejected, fun arr eps hmiss => absurd hmiss (hnone arr eps)⟩

def twoEndpoints : Json :=
  let ep : Json := .object [("state", .string (ascii "DONE")),
    ("endpointInfoFrames", .object [("nonSecureNIF", .string (ascii "0102"))])]
  .object [("zwNodeData", .object [("nodeId", .int 5)]), ("endpoints", .array [ep, ep])]

theorem twoEndpoints_not_restored :
    (zgwParseZwnode twoEndpoints (freshNode (.dsk 0 none) ⟨0, 0, 0, ⟨0, 0, 0⟩⟩) none 1).node.endpoints.map
        EpData.state = [.probeInfo, .probeDone] ∧
      ¬Restored (readZwnode twoEndpoints (freshNode (.dsk 0 none) ⟨0, 0, 0, ⟨0, 0, 0⟩⟩) none) 1
        (zgwParseZwnode twoEndpoints (freshNode (.dsk 0 none) ⟨0, 0, 0, ⟨0, 0, 0⟩⟩) none 1) := by
  have hrun : (zgwParseZwnode twoEndpoints (freshNode (.dsk 0 none) ⟨0, 0, 0, ⟨0, 0, 0⟩⟩) none 1).keepNode = true ∧
      (readZwnode twoEndpoints (freshNode (.dsk 0 none) ⟨0, 0, 0, ⟨0, 0, 0⟩⟩) none).nodeId.toNat ≠ 1 ∧
      (zgwParseZwnode twoEndpoints (freshNode (.dsk 0 none) ⟨0, 0, 0, ⟨0, 0, 0⟩⟩)
        none 1).node.probeState.interviewState = .interview ∧
      (zgwParseZwnode twoEndpoints (freshNode (.dsk 0 none) ⟨0, 0, 0, ⟨0, 0, 0⟩⟩) none 1).node.endpoints.map
        EpData.state = [.probeInfo, .probeDone] := by
    decide
  refine ⟨hrun.2.2.2, fun h => ?_⟩
  obtain ⟨arr, -, hconsistent⟩ := h.consistent hrun.1 hrun.2.1
  have hstates := (hconsistent.interviewed hrun.2.2.1).2
  rw [← List.forall_mem_map (P := (· = EpState.probeInfo)), hrun.2.2.2] at hstates
  revert hstates
  decide

end Node

end ZipGateway.Restore
