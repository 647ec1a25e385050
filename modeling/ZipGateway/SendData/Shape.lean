import ZipGateway.SendData.Queues

/-!
# The shape of the queues

A block is in at most one place: in one of the two queues, or it is the session under way. The
session under way is waited for in exactly one place, by a security layer or by a physical frame.
-/

namespace ZipGateway

namespace SendDataAppl

def live (s : SendDataAppl) : List SendBlock :=
  (if s.lock then s.currentSession.toList else []) ++ s.sessionList

def tokens (s : SendDataAppl) : List SendBlock :=
  s.owedAppl ++ s.sendDataList.filterMap fun i => (s.mem i).callback.user

structure Shape (s : SendDataAppl) : Prop where
  nodup : (s.live ++ s.sendDataList).Nodup
  alloc : ∀ i ∈ s.live ++ s.sendDataList, s.allocated i = true
  current : s.lock = true → ∃ i, s.currentSession = some i
  timers : ∀ i, (s.mem i).discardTimer = true → i ∈ s.sendDataList ∧ (s.mem i).fb.param.discardTimeout ≠ 0
  head : s.lockLl = true → ∃ i rest, s.sendDataList = i :: rest ∧ (s.mem i).discardTimer = false

def Waited (s : SendDataAppl) : Prop :=
  s.tokens = if s.lock then s.currentSession.toList else []

section Post

variable {s : SendDataAppl} {e e' : SendEvent}

theorem mem_post_of_mem (h : e' ∈ s.posted) : e' ∈ (s.post e).posted := by
  dsimp only [post]
  split
  · exact List.mem_append_left _ h
  · exact h

theorem mem_post_of_room (h : s.room = true) : e ∈ (s.post e).posted := by
  dsimp only [post]
  rw [if_pos h]
  exact List.mem_append_right _ List.mem_cons_self

theorem mem_post (h : (s.post e).lost = false) : e ∈ (s.post e).posted :=
  mem_post_of_room (by simpa using (Bool.or_eq_false_iff.mp h).2)

theorem lost_of_post (h : (s.post e).lost = false) : s.lost = false :=
  (Bool.or_eq_false_iff.mp h).1

end Post

section Alloc

variable {s t : SendDataAppl} {i : SendBlock}

theorem membAlloc_eq (h : s.membAlloc = some (i, t)) :
    s.allocated i = false ∧ t = { s with allocated := Function.update s.allocated i true } := by
  unfold membAlloc at h
  split at h
  · rename_i j hfind
    cases h
    have hp := List.find?_some hfind
    exact ⟨by simpa using hp, rfl⟩
  · cases h

theorem zwFrameBufferCreate_eq {env : SendEnv} {p : SendParam} {cmd : Mem} {len : Nat}
    {fb : Option FrameBuffer} (h : zwFrameBufferCreate env s p cmd len = (fb, t)) :
    (fb = none ∧ ¬ (env.malloc s.nMalloc = true ∧ len < frameBufferElementSize) ∧
        t = { s with nMalloc := s.nMalloc + 1 }) ∨
      (fb = some ⟨s.nBuffers, p, cmd, len⟩ ∧ t = { s with
        nMalloc := s.nMalloc + 1
        nBuffers := s.nBuffers + 1
        buffers := s.nBuffers :: s.buffers }) := by
  unfold zwFrameBufferCreate at h
  dsimp only at h
  split at h
  · cases h
    exact .inr ⟨rfl, rfl⟩
  · rename_i hcond
    cases h
    exact .inl ⟨rfl, by simpa using hcond, rfl⟩

theorem Shape.not_mem (h : Shape s) (hfree : s.allocated i = false) : i ∉ s.live ++ s.sendDataList := by
  intro hmem
  exact absurd ((h.alloc i hmem).symm.trans hfree) (by decide)

end Alloc

end SendDataAppl

end ZipGateway
