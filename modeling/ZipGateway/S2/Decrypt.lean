import ZipGateway.S2.Fsm

/-!
# Opening encapsulations

`S2_decrypt_msg`, cut at its phases: the sequence check, the clear extensions, the search for class
and nonce, the encrypted extensions. What the phases change in the context stays changed when a
later one fails.
-/

namespace ZipGateway

def Connection.isMulticast (con : Connection) : Bool :=
  con.rxOptions &&& rxoptionMulticast != 0

namespace S2

variable (env : Env)

structure Locals where
  mpan : Option MpanRef
  hdrLen : Nat
  sNonce : Block
  rNonce : Block

/-- The outcome: the return code, the connection, which is changed in place, and the plain text, as
a pointer into the frame and a length. -/
structure Decrypted where
  rc : DecryptReturnCode
  con : Connection
  plainText : Mem
  plainTextLen : Nat
  s : S2

def Decrypted.failed (rc : DecryptReturnCode) (con : Connection) (s : S2) : Decrypted :=
  { rc := rc, con := con, plainText := fun _ => 0, plainTextLen := 0, s := s }

def Connection.addFollowup (con : Connection) : Connection :=
  { con with rxOptions := con.rxOptions ||| rxoptionFollowup }

/-- One clear extension at `ext`, `none` being `parse_fail`; the senders nonce is only read when the span
waits for it. -/
def clearExtension (s : S2) (locals : Locals) (con : Connection) (span : Option SpanRef) (msg : Mem)
    (ext : Nat) : Option (S2 × Locals) :=
  let type := msg (ext + 1) &&& exthdrTypeMask
  if type = exthdrTypeSn then
    match span with
    | some i =>
      let entry := s.spanTable i
      if entry.state = .sosLocalNonce ∧ msg ext = 18 then
        let sNonce := Block.ofBytes (msg.slice (ext + 2) 16)
        let s := s.setSpan i { entry with
            state := .instantiate
            d := env.nextNonceInstantiate sNonce entry.d.rNonce (s.sg entry.classId).nonceKey }
        some (s.log (.recognise (.sn sNonce)), { locals with sNonce := sNonce, rNonce := entry.d.rNonce })
      else
        some (s, locals)
    | none => some (s, locals)
  else if type = exthdrTypeMgrp then
    if msg ext = 3 then
      -- Only a singlecast follow-up makes a new MPAN.
      let r := s.findMpanByGroupId env con.rNode (msg (ext + 2)) (!con.isMulticast)
      some (r.2.log (.recognise (.mgrp (msg (ext + 2)))), { locals with mpan := r.1 })
    else
      none
  else if type = exthdrTypeMos then
    if msg ext = 2 then
      some ((s.setNodeMos con.rNode).log (.recognise .mos), locals)
    else
      none
  else if msg (ext + 1) &&& exthdrCriticalFlag ≠ 0 then
    none
  else
    some (s, locals)

/-- The loop over the clear extensions, each of at least one byte. -/
def parseClear (con : Connection) (span : Option SpanRef) (msg : Mem) (len : Nat) :
    Nat → S2 → Locals → Bool × S2 × Locals
  | 0, s, locals => (false, s, locals)
  | fuel + 1, s, locals =>
    let ext := locals.hdrLen
    let extLen := (msg ext).toNat
    if len < ext + extLen + authTagLen ∨ extLen = 0 then
      (false, s, locals)
    else
      match s.clearExtension env locals con span msg ext with
      | none => (false, s, locals)
      | some r =>
        let locals := { r.2 with hdrLen := ext + extLen }
        if msg (ext + 1) &&& exthdrMoreFlag ≠ 0 then
          parseClear con span msg len fuel r.1 locals
        else
          (true, r.1, locals)

def encryptedExtension (s : S2) (con : Connection) (span : Option SpanRef) (msg : Mem) (ext : Nat) :
    Option (S2 × Connection) :=
  if msg (ext + 1) &&& exthdrTypeMask = exthdrTypeMpan then
    match span with
    | some i =>
      if msg ext = 19 then
        let groupId := msg (ext + 2)
        let innerState := Block.ofBytes (msg.slice (ext + 3) 16)
        let r := s.findMpanByGroupId env con.rNode groupId true
        match r.1 with
        | some m =>
          let s := r.2.setMpan m { r.2.mpanTable m with
              innerState := innerState, state := .set, classId := (r.2.spanTable i).classId }
          some (s.log (.recognise (.mpan groupId innerState)), Connection.addFollowup con)
        | none => none
      else
        none
    -- The extension is only allowed in singlecast messages.
    | none => none
  else if msg (ext + 1) &&& exthdrCriticalFlag ≠ 0 then
    none
  else
    some (s, con)

def parseEncrypted (span : Option SpanRef) (msg : Mem) (base decryptLen : Nat) :
    Nat → S2 → Connection → Nat → Bool × S2 × Connection × Nat
  | 0, s, con, hdrLen => (false, s, con, hdrLen)
  | fuel + 1, s, con, hdrLen =>
    let ext := base + hdrLen
    let extLen := (msg ext).toNat
    if decryptLen < hdrLen + extLen ∨ extLen = 0 then
      (false, s, con, hdrLen)
    else
      match s.encryptedExtension env con span msg ext with
      | none => (false, s, con, hdrLen)
      | some r =>
        if msg (ext + 1) &&& exthdrMoreFlag ≠ 0 then
          parseEncrypted span msg base decryptLen fuel r.1 r.2 (hdrLen + extLen)
        else
          (true, r.1, r.2, hdrLen + extLen)

def authFail (s : S2) (con : Connection) (span : Option SpanRef) (mpan : Option MpanRef) :
    Decrypted :=
  let s :=
    match mpan with
    | some m => s.setMpan m { s.mpanTable m with state := .mos }
    | none => s
  let s :=
    match span with
    | some i => s.setSpan i { s.spanTable i with state := .sos }
    | none => s
  let flags := if mpan.isSome then nonceReportSos ||| nonceReportMos else nonceReportSos
  let s := if con.isMulticast then s else s.sendNonceReport env con flags
  .failed .authFail con s

/-- A message of the span authenticated. A follow-up moves the MPAN on, or has the machine wait for a frame to
report that it is out of step. -/
def acceptSinglecast (s : S2) (con : Connection) (i : SpanRef) (mpan : Option MpanRef) : Connection × S2 :=
  let s := s.setSpan i { s.spanTable i with state := .negotiated }
  let con := { con with classId := (s.spanTable i).classId }
  match mpan with
  | some m =>
    let con := Connection.addFollowup con
    if (s.mpanTable m).state = .mos then
      (con, { s with mpan := some m }.gotEncMsgMos con)
    else
      (con, s.setMpan m (nextMpanState (s.mpanTable m)))
  | none => (con, s)

def attemptClass (s : S2) (i : SpanRef) (aad text : Bytes) : Nat × Bytes × S2 :=
  if s.classLoaded (s.spanTable i).classId then
    let key := (s.sg (s.spanTable i).classId).encKey
    let nonce := (s.drawNonce env i).1
    let s := (s.drawNonce env i).2
    let r := env.ccmDecryptAndAuth key nonce aad text
    (r.1, r.2, s.log (.ccmDecrypt false key nonce aad text r.1))
  else
    (0, text, s)

/-- The loop over the classes, with the bytes decrypted or 0. The cipher works in place, on what `workbuf`
restores. -/
def tryClasses (locals : Locals) (con : Connection) (i : SpanRef) (aad : Bytes) :
    Nat → S2 → Bytes → Nat × Bytes × Connection × S2
  | 0, s, text => (0, text, con, s)
  | n + 1, s, text =>
    let r := s.attemptClass env i aad text
    let s := r.2.2
    if r.1 ≠ 0 then
      (r.1, r.2.1, s.acceptSinglecast con i locals.mpan)
    else if s.fsm ≠ .idle ∨ (s.spanTable i).state = .negotiated then
      (0, r.2.1, con, s)
    else
      let span := s.spanTable i
      let classId := if (span.classId + 1).toNat ≥ nSecClass then 0 else span.classId + 1
      let s := s.setSpan i { span with
          classId := classId
          d := env.nextNonceInstantiate locals.sNonce locals.rNonce (s.sg classId).nonceKey }
      tryClasses locals con i aad n s (s.workbuf.slice 0 text.length)

def decryptSinglecast (s : S2) (locals : Locals) (con : Connection) (i : SpanRef)
    (aad text : Bytes) : Nat × Bytes × Connection × S2 :=
  let s :=
    if s.fsm = .idle ∧ (s.spanTable i).state = .instantiate then
      { s with workbuf := s.workbuf.write 0 text }
    else s
  s.tryClasses env locals con i aad nSecClass text

def decryptMulticast (s : S2) (con : Connection) (m : MpanRef) (aad text : Bytes) : Nat × Bytes × Connection × S2 :=
  let mpan := s.mpanTable m
  let nonce := env.aes128EcbEncrypt mpan.innerState (s.sg mpan.classId).mpanKey
  let s := s.setMpan m (nextMpanState mpan)
  let key := (s.sg mpan.classId).encKey
  let r := env.ccmDecryptAndAuth key nonce aad text
  (r.1, r.2, { con with classId := mpan.classId }, s.log (.ccmDecrypt true key nonce aad text r.1))

def finishDecrypt (span : Option SpanRef) (mpan : Option MpanRef) (msg : Mem) (hdrLen : Nat)
    (aad : Bytes) (decryptLen : Nat) (text : Bytes) (con : Connection) (s : S2) : Decrypted :=
  if decryptLen = 0 ∨ aad = [] then
    s.authFail env con span mpan
  else
    let msg := msg.write hdrLen text
    let r :=
      if msg 3 &&& encapsulationEncryptedExtension ≠ 0 then
        parseEncrypted env span msg hdrLen decryptLen decryptLen s con 0
      else
        (true, s, con, 0)
    let shdrLen := r.2.2.2
    if r.1 then
      { rc := .authOk, con := r.2.2.1, s := r.2.1
        plainText := fun j => msg (hdrLen + shdrLen + j), plainTextLen := decryptLen - shdrLen }
    else
      .failed .parseFail r.2.2.1 r.2.1

def parseHeader (s : S2) (con : Connection) (span : Option SpanRef) (msg : Mem) (len : Nat) : Bool × S2 × Locals :=
  let stack := env.stack s.nDecrypt
  let s := { s with nDecrypt := s.nDecrypt + 1 }
  let locals : Locals := { mpan := none, hdrLen := 4, sNonce := stack.1, rNonce := stack.2 }
  if msg 3 &&& encapsulationExtension ≠ 0 then parseClear env con span msg len len s locals
  else (true, s, locals)

def decryptSpan (s : S2) (locals : Locals) (con : Connection) (i : SpanRef) (msg : Mem) (len : Nat) : Decrypted :=
  if (s.spanTable i).state = .negotiated ∨ (s.spanTable i).state = .instantiate then
    let aad := s.makeAad con.rNode con.lNode msg locals.hdrLen len
    let text := msg.slice locals.hdrLen (len - locals.hdrLen)
    let d := s.decryptSinglecast env locals con i aad text
    finishDecrypt env (some i) locals.mpan msg locals.hdrLen aad d.1 d.2.1 d.2.2.1 d.2.2.2
  else
    s.authFail env con (some i) locals.mpan

/-- A multicast frame after its clear extensions, with the group as the receiver in the additional data. -/
def decryptGroup (s : S2) (locals : Locals) (con : Connection) (msg : Mem) (len : Nat) : Decrypted :=
  match locals.mpan with
  | some m =>
    if (s.mpanTable m).state = .set then
      let con := { con with lNode := (s.mpanTable m).groupId.toUInt16 }
      let aad := s.makeAad con.rNode con.lNode msg locals.hdrLen len
      let text := msg.slice locals.hdrLen (len - locals.hdrLen)
      let d := s.decryptMulticast env con m aad text
      finishDecrypt env none locals.mpan msg locals.hdrLen aad d.1 d.2.1 d.2.2.1 d.2.2.2
    else
      s.authFail env con none locals.mpan
  | none => s.authFail env con none none

def decryptBody (s : S2) (con : Connection) (span : Option SpanRef) (msg : Mem) (len : Nat) :
    Decrypted :=
  let r := s.parseHeader env con span msg len
  if r.1 then
    match span with
    | some i => r.2.1.decryptSpan env r.2.2 con i msg len
    | none => r.2.1.decryptGroup env r.2.2 con msg len
  else
    .failed .parseFail con r.2.1

def decryptMsg (s : S2) (con : Connection) (msg : Mem) (len : Nat) : Decrypted :=
  if len < 4 + authTagLen then
    .failed .parseFail con s
  else if con.isMulticast then
    s.decryptBody env con none msg len
  else
    let ok := (s.verifySeq env con (msg 2)).1
    let s := (s.verifySeq env con (msg 2)).2
    if ok then
      let i := (s.findSpanByNode env con).1
      let s := (s.findSpanByNode env con).2
      s.decryptBody env con (some i) msg len
    else
      .failed .sequenceFail con s

end ZipGateway.S2
