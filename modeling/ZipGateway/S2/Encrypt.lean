import ZipGateway.S2.Tables

/-!
# Building encapsulations

`S2_encrypt_and_send` and `S2_encrypt_and_send_multi` up to the point where the frame is handed to
the layer below. The frame is built in `workbuf`, as the source builds it: the clear extensions
behind the four header bytes, then the MPAN extensions and the payload, which are encrypted in place.
-/

namespace ZipGateway.S2

variable (env : Env)

def lowestLongRangeNodeId : NodeId := 0x0100

def be16 (n : Nat) : Bytes :=
  [UInt8.ofNat (n / 256), UInt8.ofNat n]

def makeAad (s : S2) (sender receiver : NodeId) (msg : Mem) (hdrLen msgLen : Nat) : Bytes :=
  if 64 < hdrLen - 2 + 8 then
    []
  else
    let ids :=
      if lowestLongRangeNodeId ≤ sender ∨ lowestLongRangeNodeId ≤ receiver then
        be16 sender.toNat ++ be16 receiver.toNat
      else
        [sender.toUInt8, receiver.toUInt8]
    ids ++ be16 (s.myHomeId.toNat / 65536) ++ be16 s.myHomeId.toNat ++ be16 msgLen ++ msg.slice 2 (hdrLen - 2)

structure Header where
  msg : Mem
  hdrLen : Nat
  nExt : Nat

def Header.add (h : Header) (extension : Bytes) : Header where
  msg := h.msg.write h.hdrLen extension
  hdrLen := h.hdrLen + extension.length
  nExt := h.nExt + 1

/-- The senders nonce extension: when the peer's entropy is there but no generator, a generator is
made of it, under the class of the peer. -/
def addSn (s : S2) (i : SpanRef) (h : Header) : S2 × Header :=
  if (s.spanTable i).state = .sosRemoteNonce then
    let eiSender := (s.ctrDrbgGenerate env).1
    let s := (s.ctrDrbgGenerate env).2
    let span := s.spanTable i
    let s := s.setSpan i { span with
        d := env.nextNonceInstantiate eiSender span.d.rNonce (s.sg s.peer.classId).nonceKey
        classId := s.peer.classId
        state := .negotiated }
    (s.log (.attach (.sn eiSender)), h.add ([18, exthdrCriticalFlag ||| exthdrTypeSn] ++ eiSender.toList))
  else
    (s, h)

/-- The group extension of a follow-up, or the MPAN for a node that reported MOS. The first follow-up moves
the MPAN on, unless retransmitted. -/
def addMgrp (s : S2) (h : Header) : S2 × Header :=
  match s.mpan with
  | some m =>
    if isFollowup s.peer.txOptions then
      let groupId := (s.mpanTable m).groupId
      let r :=
        if s.isNodeMos s.peer.rNode then (s, h)
        else
          (s.log (.attach (.mgrp groupId)), h.add [3, exthdrCriticalFlag ||| exthdrTypeMgrp, groupId])
      if s.peer.txOptions &&& txoptionFirstSinglecastFollowup ≠ 0 ∧ s.retry = 2 then
        (r.1.setMpan m (nextMpanState (r.1.mpanTable m)), r.2)
      else
        r
    else
      (s, h)
  | none => (s, h)

def addMos (s : S2) (h : Header) : S2 × Header :=
  match s.mpan with
  | some m =>
    if (s.mpanTable m).state = .mos then
      let s := s.setMpan m { s.mpanTable m with state := .notUsed }
      ({ s with mpan := none }.log (.attach .mos), h.add [2, exthdrTypeMos])
    else
      (s, h)
  | none => (s, h)

/-- `while (--n_ext) ext_data[1] |= S2_MSG_EXTHDR_MORE_FLAG`: the pointer stays on the first
extension. -/
def insertMoreFlag : Nat → Mem → Mem
  | 0, msg => msg
  | n + 1, msg => insertMoreFlag n (msg.write 5 [msg 5 ||| exthdrMoreFlag])

def Header.finish (h : Header) : Mem :=
  if h.nExt = 0 then
    h.msg
  else
    insertMoreFlag (h.nExt - 1) (h.msg.write 3 [h.msg 3 ||| encapsulationExtension])

structure MpanDraft where
  s : S2
  msg : Mem
  p : Nat
  k : Nat

/-- One round over `mos_list`: `p` is moved over three bytes, and not over the inner state. -/
def addMpanExtension (draft : MpanDraft) (i : Fin mosListLength) : MpanDraft :=
  let s := draft.s
  let entry := s.mosList i
  if entry.nodeId = s.peer.rNode then
    match (s.findMpanByGroupId env 0 entry.groupId false).1 with
    | some m =>
      let innerState := (s.mpanTable m).innerState
      let type := exthdrTypeMpan ||| exthdrMoreFlag ||| exthdrCriticalFlag
      { s :=
          { s with mosList := Function.update s.mosList i { entry with nodeId := 0 } }.log
            (.attach (.mpan entry.groupId innerState))
        msg := (draft.msg.write draft.p [19, type, entry.groupId]).write (draft.p + 3) innerState.toList
        p := draft.p + 3
        k := draft.k + 1 }
    | none => draft
  else
    draft

def addMpanExtensions (s : S2) (msg : Mem) (ext : Nat) : S2 × Mem × Nat :=
  let draft := (List.finRange mosListLength).foldl (addMpanExtension env) { s := s, msg := msg, p := ext, k := 0 }
  let last := ext + (draft.k - 1) * 19 + 1
  let msg :=
    if draft.k = 0 then draft.msg
    else draft.msg.write last [draft.msg last &&& ~~~exthdrMoreFlag]
  (draft.s, msg, draft.k * 19)

def drawNonce (s : S2) (i : SpanRef) : Block × S2 :=
  let span := s.spanTable i
  let r := env.nextNonceGenerate span.d
  (r.1, s.setSpan i { span with d := r.2 })

def encryptHeader (s : S2) (i : SpanRef) : S2 × Header :=
  let msg := s.workbuf.write 0 [commandClassSecurity2, security2MessageEncapsulation, (s.spanTable i).txSeq, 0]
  let r := s.addSn env i { msg := msg, hdrLen := 4, nExt := 0 }
  let r := r.1.addMgrp r.2
  r.1.addMos r.2

def encrypt (s : S2) : Bytes × S2 :=
  let i := (s.findSpanByNode env s.peer).1
  let s := (s.findSpanByNode env s.peer).2
  let s := s.log (.encryptAndSend (s.spanTable i).state)
  let r := s.encryptHeader env i
  let hdrLen := r.2.hdrLen
  let mpans := r.1.addMpanExtensions env r.2.finish hdrLen
  let s := mpans.1
  let shdrLen := mpans.2.2
  let msg :=
    if shdrLen = 0 then mpans.2.1
    else mpans.2.1.write 3 [mpans.2.1 3 ||| encapsulationEncryptedExtension]
  let msg := msg.write (hdrLen + shdrLen) (s.buf.slice 0 s.length)
  let aad := s.makeAad s.peer.lNode s.peer.rNode msg hdrLen (s.length + shdrLen + hdrLen + authTagLen)
  let nonce := (s.drawNonce env i).1
  let s := (s.drawNonce env i).2
  let ciphertext := env.ccmEncryptAndAuth (s.sg s.peer.classId).encKey nonce aad (msg.slice hdrLen (s.length + shdrLen))
  let msg := msg.write hdrLen ciphertext
  (msg.slice 0 (ciphertext.length + hdrLen), { s with workbuf := msg })

def encryptMulti (s : S2) (m : MpanRef) : Bytes × S2 :=
  let mpan := s.mpanTable m
  let msg := s.workbuf.write 0 [commandClassSecurity2, security2MessageEncapsulation, 0xFF, encapsulationExtension,
      3, exthdrCriticalFlag ||| exthdrTypeMgrp, mpan.groupId]
  let msg := msg.write 7 (s.buf.slice 0 s.length)
  let aad := s.makeAad s.peer.lNode s.peer.rNode msg 7 (s.length + 7 + authTagLen)
  let nonce := env.aes128EcbEncrypt mpan.innerState (s.sg mpan.classId).mpanKey
  let s := s.setMpan m (nextMpanState mpan)
  let ciphertext := env.ccmEncryptAndAuth (s.sg mpan.classId).encKey nonce aad (msg.slice 7 s.length)
  let msg := msg.write 7 ciphertext
  (msg.slice 0 (ciphertext.length + 7), { s with workbuf := msg })

end ZipGateway.S2
