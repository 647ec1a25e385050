import ZipGateway.Security0.Context

/-!
# The nonce table and the nonce blacklist
-/

namespace ZipGateway

namespace NonceEntry

def Live (e : NonceEntry) (src dst : UInt8) : Prop :=
  0 < e.timeout ∧ e.src = src ∧ e.dst = dst

instance (e : NonceEntry) (src dst : UInt8) : Decidable (e.Live src dst) := by
  unfold Live
  infer_instance

end NonceEntry

/-- `register_nonce`, first loop: only one reply nonce is allowed. -/
def overwriteReply (table : List NonceEntry) (src dst : UInt8) (nonce : Nonce) (issue : Nat) :
    Option (List NonceEntry) :=
  Table.updateFirst (fun e => e.replyNonce && decide (e.Live src dst))
    (fun e => { e with nonce := nonce, timeout := nonceTimeout, issue := issue }) table

/-- `register_nonce`, second loop. -/
def takeFreeEntry (table : List NonceEntry) (src dst : UInt8) (replyNonce : Bool) (nonce : Nonce)
    (issue : Nat) : Option (List NonceEntry) :=
  Table.updateFirst (fun e => e.timeout == 0)
    (fun _ => { src, dst, timeout := nonceTimeout, replyNonce, nonce, issue }) table

def registerEntry (table : List NonceEntry) (src dst : UInt8) (replyNonce : Bool) (nonce : Nonce)
    (issue : Nat) : Option (List NonceEntry) :=
  match if replyNonce then overwriteReply table src dst nonce issue else none with
  | some table' => some table'
  | none => takeFreeEntry table src dst replyNonce nonce issue

def getNonce (table : List NonceEntry) (src dst : UInt8) (ri : Option UInt8) : Option NonceEntry :=
  table.find? fun e =>
    decide (e.Live src dst) && (match ri with
      | some ri => e.nonce.id == ri
      | none => true)

def nonceClear (table : List NonceEntry) (src dst : UInt8) : List NonceEntry :=
  table.map fun e => if e.Live src dst then { e with timeout := 0 } else e

def nonceTimerTimeout (table : List NonceEntry) : List NonceEntry :=
  table.map fun e => if 0 < e.timeout then { e with timeout := e.timeout - 1 } else e

/-- The loop around `aes_random8`, until the first byte is not in use; `none` is a loop that still draws. -/
def drawNonce (table : List NonceEntry) (src dst : UInt8) (draws : List Nonce) : Option Nonce :=
  draws.find? fun n => (getNonce table src dst (some n.id)).isNone

namespace Security0

def registerNonce (s : Security0) (use : NonceUse) (src dst : UInt8) (nonce : Nonce) : Security0 :=
  match registerEntry s.nonceTable src dst (use == .reply) nonce s.nIssues with
  | some table =>
    ({ s with nonceTable := table, nIssues := s.nIssues + 1 }).log (.registered s.nIssues use src dst nonce)
  | none => s

def sec0IsNonceBlacklisted (s : Security0) (src dst : UInt8) (nonce : Nonce) : Bool :=
  (List.range nonceBlacklistSize).any fun i => s.nonceBlacklist i == some (src, dst, nonce)

def sec0BlacklistAddNonce (s : Security0) (src dst : UInt8) (nonce : Nonce) : Security0 :=
  { s with
    nonceBlacklist := Function.update s.nonceBlacklist s.blacklistNextElem (some (src, dst, nonce))
    blacklistNextElem := (s.blacklistNextElem + 1) % nonceBlacklistSize }

end Security0

variable {e : NonceEntry}

section Lemmas

variable {table : List NonceEntry} {src dst : UInt8}

theorem getNonce_eq_some {ri : Option UInt8} (h : getNonce table src dst ri = some e) : e ∈ table ∧ e.Live src dst := by
  have hp := List.find?_some h
  simp only [Bool.and_eq_true, decide_eq_true_eq] at hp
  exact ⟨List.mem_of_find?_eq_some h, hp.1⟩

theorem not_live_nonceClear (he : e ∈ nonceClear table src dst) : ¬e.Live src dst := by
  obtain ⟨old, -, rfl⟩ := List.mem_map.mp he
  split
  · simp [NonceEntry.Live]
  · assumption

theorem mem_of_mem_nonceClear (he : e ∈ nonceClear table src dst) (hlive : 0 < e.timeout) : e ∈ table := by
  obtain ⟨old, hmem, heq⟩ := List.mem_map.mp he
  split at heq
  · subst heq
    exact absurd hlive (by simp)
  · subst heq
    exact hmem

theorem mem_of_mem_nonceTimerTimeout (he : e ∈ nonceTimerTimeout table) :
    ∃ old ∈ table, e.issue = old.issue ∧ e.src = old.src ∧ e.dst = old.dst ∧
      e.nonce = old.nonce ∧ (0 < e.timeout → 0 < old.timeout) := by
  obtain ⟨old, hmem, heq⟩ := List.mem_map.mp he
  split at heq
  · subst heq
    exact ⟨old, hmem, rfl, rfl, rfl, rfl, fun _ => by assumption⟩
  · subst heq
    exact ⟨old, hmem, rfl, rfl, rfl, rfl, fun h => h⟩

theorem mem_of_registerEntry {replyNonce : Bool} {nonce : Nonce} {issue : Nat} {table' : List NonceEntry}
    (h : registerEntry table src dst replyNonce nonce issue = some table') (he : e ∈ table') :
    e ∈ table ∨ (e.issue = issue ∧ e.src = src ∧ e.dst = dst ∧ e.nonce = nonce) := by
  unfold registerEntry at h
  split at h
  · rename_i written hover
    obtain rfl := Option.some.inj h
    split at hover
    · rcases Table.mem_of_updateFirst hover he with hmem | ⟨old, -, hp, rfl⟩
      · exact .inl hmem
      · simp only [Bool.and_eq_true, decide_eq_true_eq] at hp
        exact .inr ⟨rfl, hp.2.2.1, hp.2.2.2, rfl⟩
    · exact absurd hover (by simp)
  · rcases Table.mem_of_updateFirst h he with hmem | ⟨-, -, -, rfl⟩
    · exact .inl hmem
    · exact .inr ⟨rfl, rfl, rfl, rfl⟩

end Lemmas

end ZipGateway
