import ZipGateway.Lib.Memory

/-!
# The small memory device

`smalloc` and `smfree` on a chain of chunks. A chunk is a byte with its length and a flag and the bytes behind
it; a byte 0 ends the chain. Free chunks are joined only while a place for a new one is sought.
-/

namespace ZipGateway.SmallMemory

def chunkUsed : UInt8 := 0x80
def minChunkSize : Nat := 4

/-- A device in the memory that 16-bit pointers reach. -/
structure Device where
  offset : Nat
  size : Nat
  offset_pos : 0 < offset
  le_top : offset + size ≤ 65536

def Device.last (dev : Device) : Nat := dev.offset + dev.size - 1

def span (l : UInt8) : Nat := l.toNat % 128 + 1

def isUsed (l : UInt8) : Bool := decide (128 ≤ l.toNat)

/-- The two loops of `smalloc`, with `start` where the free bytes begin: the memory and the pointer, 0 if
there is no place. -/
def smallocLoop (last datalen : Nat) (m : Mem) : Nat → Nat → Nat → Option (Mem × Nat)
  | 0, _, _ => none
  | fuel + 1, start, p =>
    let l := m p
    let p := (p + span l) % 65536
    if isUsed l then
      if p + datalen < last then smallocLoop last datalen m fuel p p else some (m, 0)
    else if l = 0 then
      some ((m.write start [UInt8.ofNat datalen ||| chunkUsed]).write (start + 1 + datalen) [0], start + 1)
    else if last ≤ p then some (m, 0)
    else if datalen + 1 = p - start then some (m.write start [UInt8.ofNat datalen ||| chunkUsed], start + 1)
    else if datalen + 1 < p - start then
      let reminder := p - start - (datalen + 1)
      if reminder < minChunkSize then some (m.write start [UInt8.ofNat (p - start - 1) ||| chunkUsed], start + 1)
      else
        some ((m.write (start + datalen + 1) [UInt8.ofNat (reminder - 1)]).write start
          [UInt8.ofNat datalen ||| chunkUsed], start + 1)
    else smallocLoop last datalen m fuel start p

def smalloc (dev : Device) (m : Mem) (datalen : Nat) : Option (Mem × Nat) :=
  if dev.offset + datalen < dev.last then smallocLoop dev.last datalen m (dev.size + 1) dev.offset dev.offset
  else some (m, 0)

def smfree (dev : Device) (m : Mem) (ptr : Nat) : Mem :=
  if dev.offset < ptr ∧ ptr < dev.offset + dev.size then m.write (ptr - 1) [m (ptr - 1) &&& ~~~chunkUsed] else m

def smallocWrite (dev : Device) (m : Mem) (data : Bytes) : Option (Mem × Nat) := do
  let (m, ptr) ← smalloc dev m data.length
  return (if ptr ≠ 0 then m.write ptr data else m, ptr)

def smformat (dev : Device) (m : Mem) : Mem :=
  m.write dev.offset [0]

inductive Walk (m : Mem) (P : UInt8 → Prop) : Nat → Nat → Prop
  | refl (p : Nat) : Walk m P p p
  | step {p q : Nat} (h : P (m p)) (next : Walk m P (p + span (m p)) q) : Walk m P p q

def IsChunk (l : UInt8) : Prop := l ≠ 0

instance : DecidablePred IsChunk := fun _ => inferInstanceAs (Decidable (_ ≠ _))

def IsFree (l : UInt8) : Prop := l ≠ 0 ∧ isUsed l = false

namespace Walk

variable {m m' : Mem} {P Q : UInt8 → Prop} {p q r : Nat}

theorem le (h : Walk m P p q) : p ≤ q := by
  induction h with
  | refl => exact Nat.le_refl _
  | step _ _ ih =>
    unfold span at ih
    omega

theorem trans (h : Walk m P p q) (h' : Walk m P q r) : Walk m P p r := by
  induction h with
  | refl => exact h'
  | step hP _ ih => exact .step hP (ih h')

theorem mono (hPQ : ∀ l, P l → Q l) (h : Walk m P p q) : Walk m Q p q := by
  induction h with
  | refl => exact .refl _
  | step hP _ ih => exact .step (hPQ _ hP) ih

theorem single (h : P (m p)) : Walk m P p (p + span (m p)) :=
  .step h (.refl _)

theorem headers (h : Walk m P p q) (hsame : ∀ i, Walk m P p i → i < q → m' i = m i) : Walk m' P p q := by
  induction h with
  | refl => exact .refl _
  | @step p q hP next ih =>
    have hle := next.le
    have hp : m' p = m p := hsame p (.refl _) (by unfold span at hle; omega)
    refine .step (hp ▸ hP) ?_
    rw [hp]
    exact ih fun i hi hq => hsame i (.step hP hi) hq

theorem congr (h : Walk m P p q) (hsame : ∀ i, p ≤ i → i < q → m' i = m i) : Walk m' P p q :=
  h.headers fun i hi hq => hsame i hi.le hq

theorem keep (h : Walk m P p q) (hsame : ∀ i, P (m i) → Q (m' i) ∧ span (m' i) = span (m i)) : Walk m' Q p q := by
  induction h with
  | refl => exact .refl _
  | step hP _ ih =>
    obtain ⟨hQ, hspan⟩ := hsame _ hP
    exact .step hQ (hspan ▸ ih)

theorem meet (h : Walk m P p q) (h' : Walk m Q p r) : Walk m Q q r ∨ Walk m P r q := by
  induction h generalizing r with
  | refl => exact .inl h'
  | step hP next ih =>
    cases h' with
    | refl => exact .inr (.step hP next)
    | step hQ next' => exact ih next'

theorem stop (h : Walk m P p q) (h' : Walk m Q p r) (hr : ¬P (m r)) : Walk m Q q r := by
  obtain h | h := h.meet h'
  · exact h
  · cases h with
    | refl => exact .refl _
    | step hP _ => exact absurd hP hr

theorem eq_or_span_le (h : Walk m P p q) : q = p ∨ p + span (m p) ≤ q := by
  cases h with
  | refl => exact .inl rfl
  | step _ next => exact .inr next.le

end Walk

section Loop

variable (dev : Device) (m : Mem) (n q : Nat)

structure Chained : Prop where
  walk : Walk m IsChunk dev.offset q
  marker : m q = 0
  inside : q ≤ dev.last
  nonempty : 0 < dev.size

/-- A place for `n` bytes: free chunks from `s` to `e` with room for them, or the end of the chain, behind which
the marker moves. -/
structure Fits (s e : Nat) : Prop where
  head : Walk m IsChunk dev.offset s
  run : Walk m IsFree s e
  room : n + 1 ≤ e - s ∨ e = q ∧ s + n < dev.last

structure Seeking (start p : Nat) : Prop where
  head : Walk m IsChunk dev.offset start
  run : Walk m IsFree start p
  rest : Walk m IsChunk p q
  short : p - start ≤ n
  before : ∀ s e, Walk m IsChunk dev.offset s → Walk m IsFree s e → s < start → e - s ≤ n
  room : start + n < dev.last

structure First (start p : Nat) : Prop where
  head : Walk m IsChunk dev.offset start
  run : Walk m IsFree start p
  rest : Walk m IsChunk p q
  fits : n + 1 ≤ p - start
  least : ∀ s e, Walk m IsChunk dev.offset s → Walk m IsFree s e → n + 1 ≤ e - s → start ≤ s ∧ (s = start → p ≤ e)
  bound : p - start ≤ n + 128

/-- What `smalloc` does to the memory. -/
inductive Outcome : Mem × Nat → Prop
  | tail (start : Nat) (head : Walk m IsChunk dev.offset start) (run : Walk m IsFree start q)
      (room : start + n < dev.last) :
      Outcome ((m.write start [UInt8.ofNat n ||| chunkUsed]).write (start + 1 + n) [0], start + 1)
  | fill (start p : Nat) (first : First dev m n q start p) (slack : p - start < n + 1 + minChunkSize) :
      Outcome (m.write start [UInt8.ofNat (p - start - 1) ||| chunkUsed], start + 1)
  | split (start p : Nat) (first : First dev m n q start p) (slack : n + 1 + minChunkSize ≤ p - start) :
      Outcome ((m.write (start + n + 1) [UInt8.ofNat (p - start - (n + 1) - 1)]).write start
        [UInt8.ofNat n ||| chunkUsed], start + 1)
  | fail (only : ∀ s e, Fits dev m n q s e → e = q ∧ q = dev.last) : Outcome (m, 0)

variable {dev m n q} {start p s e : Nat}

theorem Chained.last_lt (h : Chained dev m q) : dev.last < 65536 := by
  have htop := dev.le_top
  have hpos := h.nonempty
  unfold Device.last
  omega

theorem Chained.rest (h : Chained dev m q) (hp : Walk m IsChunk dev.offset p) : Walk m IsChunk p q :=
  hp.stop h.walk fun hq => hq h.marker

theorem Fits.le (h : Fits dev m n q s e) (hchain : Chained dev m q) : e ≤ q :=
  (hchain.rest (h.head.trans (h.run.mono fun _ hl => hl.1))).le

theorem Seeking.walk (h : Seeking dev m n q start p) : Walk m IsChunk dev.offset p :=
  h.head.trans (h.run.mono fun _ hl => hl.1)

theorem Seeking.short_of_le (h : Seeking dev m n q start p) (hs : Walk m IsChunk dev.offset s)
    (he : Walk m IsFree s e) (hle : e ≤ p) : e - s ≤ n := by
  have hshort := h.short
  rcases Nat.lt_or_ge s start with hbefore | hafter
  · exact h.before s e hs he hbefore
  · omega

theorem Seeking.before_used (h : Seeking dev m n q start p) (hused : ¬IsFree (m p))
    (hs : Walk m IsChunk dev.offset s) (he : Walk m IsFree s e) (hlt : s < p + span (m p)) :
    e - s ≤ n ∧ e ≤ p := by
  have hsp : Walk m IsChunk s p := by
    obtain hsp | hps := hs.meet h.walk
    · exact hsp
    · obtain rfl | hle := hps.eq_or_span_le
      · exact .refl _
      · omega
  have hep := (he.stop hsp hused).le
  exact ⟨h.short_of_le hs he hep, hep⟩

theorem Seeking.next (h : Seeking dev m n q start p) (hfree : IsFree (m p)) (rest : Walk m IsChunk (p + span (m p)) q)
    (hshort : p + span (m p) - start ≤ n) : Seeking dev m n q start (p + span (m p)) :=
  ⟨h.head, h.run.trans (.single hfree), rest, hshort, h.before, h.room⟩

theorem Seeking.first (h : Seeking dev m n q start p) (hfree : IsFree (m p)) (rest : Walk m IsChunk (p + span (m p)) q)
    (hfits : n + 1 ≤ p + span (m p) - start) : First dev m n q start (p + span (m p)) where
  head := h.head
  run := h.run.trans (.single hfree)
  rest := rest
  fits := hfits
  least := by
    intro s e hs he hroom
    have hle : start ≤ s := by
      by_contra hlt
      have hshort := h.before s e hs he (by omega)
      omega
    refine ⟨hle, ?_⟩
    rintro rfl
    have hpe : p < e := by
      have hshort := h.short
      omega
    obtain hep | hpe' := he.meet h.run
    · have hep := hep.le
      omega
    · obtain rfl | hle := hpe'.eq_or_span_le
      · omega
      · exact hle
  bound := by
    have hshort := h.short
    unfold span
    omega

theorem smallocLoop_outcome (hchain : Chained dev m q) (h : Seeking dev m n q start p) {fuel : Nat}
    (hfuel : q - p < fuel) : ∃ r, smallocLoop dev.last n m fuel start p = some r ∧ Outcome dev m n q r := by
  induction fuel generalizing start p with
  | zero => omega
  | succ fuel ih =>
    have hlast := hchain.last_lt
    have hinside := hchain.inside
    have hrest := h.rest
    obtain rfl | hpq := hrest.eq_or_span_le
    · refine ⟨_, ?_, .tail start h.head h.run h.room⟩
      have hunused : isUsed 0 = false := rfl
      simp [smallocLoop, hchain.marker, hunused]
    have hchunk : m p ≠ 0 := by
      intro hzero
      have hstop := (hrest.stop (Q := IsChunk) (.refl p) fun hp => hp hzero).le
      unfold span at hpq
      omega
    have hnext := hchain.rest (h.walk.trans (.single hchunk))
    have hmod : (p + span (m p)) % 65536 = p + span (m p) := Nat.mod_eq_of_lt (by omega)
    have hpos : p < p + span (m p) := Nat.lt_add_of_pos_right (Nat.succ_pos _)
    by_cases hused : isUsed (m p)
    · have hnot : ¬IsFree (m p) := fun hfree => by simp [hfree.2] at hused
      by_cases hroom : p + span (m p) + n < dev.last
      · have hseek : Seeking dev m n q (p + span (m p)) (p + span (m p)) :=
          ⟨h.walk.trans (.single hchunk), .refl _, hnext, by omega,
            fun s e hs he hlt => (h.before_used hnot hs he hlt).1, hroom⟩
        obtain ⟨r, hr, houtcome⟩ := ih hseek (by omega)
        refine ⟨r, ?_, houtcome⟩
        simp [smallocLoop, hused, hmod, hroom, hr]
      · refine ⟨(m, 0), by simp [smallocLoop, hused, hmod, hroom], .fail fun s e hfits => ?_⟩
        exfalso
        have heq := hfits.le hchain
        rcases Nat.lt_or_ge s (p + span (m p)) with hlt | hge
        · obtain ⟨hshort, hep⟩ := h.before_used hnot hfits.head hfits.run hlt
          rcases hfits.room with hfit | ⟨rfl, -⟩ <;> omega
        · rcases hfits.room with hfit | ⟨-, hroom'⟩ <;> omega
    · have hfree : IsFree (m p) := ⟨hchunk, by simpa using hused⟩
      by_cases hend : dev.last ≤ p + span (m p)
      · have hlastq : p + span (m p) = q ∧ q = dev.last := by omega
        refine ⟨(m, 0), by simp [smallocLoop, hused, hchunk, hmod, hend], .fail fun s e hfits => ⟨?_, hlastq.2⟩⟩
        by_contra hne
        have hle := hfits.le hchain
        have hep : e ≤ p := by
          obtain hep | hpe := (hfits.head.trans (hfits.run.mono fun _ hl => hl.1)).meet h.walk
          · exact hep.le
          · obtain rfl | hpe := hpe.eq_or_span_le <;> omega
        have hshort := h.short_of_le hfits.head hfits.run hep
        rcases hfits.room with hfit | ⟨heq, -⟩ <;> omega
      · by_cases hfit : n + 1 ≤ p + span (m p) - start
        · have hfirst := h.first hfree hnext hfit
          have hunfold : smallocLoop dev.last n m (fuel + 1) start p =
              if n + 1 = p + span (m p) - start then
                some (m.write start [UInt8.ofNat n ||| chunkUsed], start + 1)
              else if n + 1 < p + span (m p) - start then
                if p + span (m p) - start - (n + 1) < minChunkSize then
                  some (m.write start [UInt8.ofNat (p + span (m p) - start - 1) ||| chunkUsed], start + 1)
                else
                  some ((m.write (start + n + 1) [UInt8.ofNat (p + span (m p) - start - (n + 1) - 1)]).write start
                    [UInt8.ofNat n ||| chunkUsed], start + 1)
              else smallocLoop dev.last n m fuel start (p + span (m p)) := by
            simp [smallocLoop, hused, hchunk, hmod, hend]
          by_cases hslack : p + span (m p) - start < n + 1 + minChunkSize
          · refine ⟨_, ?_, .fill start _ hfirst hslack⟩
            rw [hunfold]
            by_cases hexact : n + 1 = p + span (m p) - start
            · rw [if_pos hexact, ← hexact]
              rfl
            · rw [if_neg hexact, if_pos (by omega), if_pos (by omega)]
          · refine ⟨_, ?_, .split start _ hfirst (by omega)⟩
            unfold minChunkSize at hslack hunfold
            rw [hunfold, if_neg (by omega), if_pos (by omega), if_neg (by omega)]
        · obtain ⟨r, hr, houtcome⟩ := ih (h.next hfree hnext (by omega)) (by omega)
          refine ⟨r, ?_, houtcome⟩
          rw [smallocLoop]
          simp only [hused, hmod, hchunk, hend, if_false, Bool.false_eq_true]
          rw [if_neg (by omega), if_neg (by omega)]
          exact hr

theorem smalloc_outcome (hchain : Chained dev m q) : ∃ r, smalloc dev m n = some r ∧ Outcome dev m n q r := by
  unfold smalloc
  have hinside := hchain.inside
  split
  · rename_i hroom
    refine smallocLoop_outcome hchain ⟨.refl _, .refl _, hchain.walk, by omega, fun s e hs _ hlt => ?_, hroom⟩ ?_
    · have hle := hs.le
      omega
    · unfold Device.last at hinside
      omega
  · rename_i hroom
    refine ⟨_, rfl, .fail fun s e hfits => ?_⟩
    have hs := hfits.head.le
    have he := hfits.le hchain
    exfalso
    rcases hfits.room with hfit | ⟨-, hlt⟩ <;> omega

end Loop

structure Block where
  ptr : Nat
  data : Bytes
deriving DecidableEq

section Blocks

variable {dev : Device} {m m' : Mem} {n q start p a : Nat} {b : Block}

structure Live (dev : Device) (m : Mem) (b : Block) : Prop where
  ptr_pos : 0 < b.ptr
  walk : Walk m IsChunk dev.offset (b.ptr - 1)
  used : isUsed (m (b.ptr - 1)) = true
  length_lt : b.data.length < span (m (b.ptr - 1))
  data : m.slice b.ptr b.data.length = b.data

theorem isChunk_of_isUsed {l : UInt8} (h : isUsed l = true) : IsChunk l := by
  rintro rfl
  contradiction

theorem not_isFree_of_isUsed {l : UInt8} (h : isUsed l = true) : ¬IsFree l := fun hfree => by
  rw [hfree.2] at h
  contradiction

theorem Live.step (h : Live dev m b) : Walk m IsChunk dev.offset (b.ptr - 1 + span (m (b.ptr - 1))) :=
  h.walk.trans (.single (isChunk_of_isUsed h.used))

theorem Live.header (h : Live dev m b) (ha : Walk m IsChunk dev.offset a) :
    a = b.ptr - 1 ∨ a + span (m a) ≤ b.ptr - 1 ∨ b.ptr - 1 + span (m (b.ptr - 1)) ≤ a := by
  obtain hwalk | hwalk := h.walk.meet ha
  · obtain rfl | hle := hwalk.eq_or_span_le
    · exact .inl rfl
    · exact .inr (.inr hle)
  · obtain heq | hle := hwalk.eq_or_span_le
    · exact .inl heq.symm
    · exact .inr (.inl hle)

theorem Live.beside (h : Live dev m b) (head : Walk m IsChunk dev.offset start) (run : Walk m IsFree start p)
    (hfree : isUsed (m start) = false) : b.ptr - 1 + span (m (b.ptr - 1)) ≤ start ∨ Walk m IsChunk p (b.ptr - 1) := by
  have hused := h.used
  obtain hwalk | hwalk := h.walk.meet head
  · obtain heq | hle := hwalk.eq_or_span_le
    · rw [← heq, hfree] at hused
      contradiction
    · exact .inl hle
  · exact .inr (run.stop hwalk (not_isFree_of_isUsed hused))

theorem Live.congr (h : Live dev m b) (hwalk : Walk m' IsChunk dev.offset (b.ptr - 1))
    (hsame : ∀ i, b.ptr - 1 ≤ i → i < b.ptr - 1 + span (m (b.ptr - 1)) → m' i = m i) : Live dev m' b := by
  have hpos := h.ptr_pos
  have hlength := h.length_lt
  have hheader := hsame (b.ptr - 1) (Nat.le_refl _) (Nat.lt_add_of_pos_right (Nat.succ_pos _))
  refine ⟨hpos, hwalk, hheader ▸ h.used, hheader ▸ hlength, ?_⟩
  calc m'.slice b.ptr b.data.length = m.slice b.ptr b.data.length :=
        Mem.slice_congr fun i hle hlt => hsame i (by omega) (by omega)
    _ = b.data := h.data

theorem Live.kept (h : Live dev m b) (head : Walk m IsChunk dev.offset start) (run : Walk m IsFree start p)
    (hfree : isUsed (m start) = false) (hbelow : ∀ i, i < start → m' i = m i)
    (habove : Walk m IsChunk p (b.ptr - 1) → Walk m' IsChunk start p ∧ ∀ i, p ≤ i → m' i = m i) : Live dev m' b := by
  have hspan : b.ptr - 1 < b.ptr - 1 + span (m (b.ptr - 1)) := Nat.lt_add_of_pos_right (Nat.succ_pos _)
  obtain hle | hwalk := h.beside head run hfree
  · exact h.congr (h.walk.congr fun i _ hi => hbelow i (by omega)) fun i _ hi => hbelow i (by omega)
  · obtain ⟨hnew, hsame⟩ := habove hwalk
    have hle := hwalk.le
    refine h.congr ?_ fun i hi _ => hsame i (by omega)
    exact ((head.congr fun i _ hi => hbelow i hi).trans hnew).trans (hwalk.congr fun i hi _ => hsame i hi)

theorem header_toNat {k : Nat} (hk : k < 128) : (UInt8.ofNat k ||| chunkUsed).toNat = 128 + k := by
  have hall : ∀ k : Fin 128, (UInt8.ofNat k ||| chunkUsed).toNat = 128 + k := by decide
  exact hall ⟨k, hk⟩

theorem isUsed_header {k : Nat} (hk : k < 128) : isUsed (UInt8.ofNat k ||| chunkUsed) = true := by
  rw [isUsed, header_toNat hk]
  exact decide_eq_true (by omega)

theorem span_header {k : Nat} (hk : k < 128) : span (UInt8.ofNat k ||| chunkUsed) = k + 1 := by
  rw [span, header_toNat hk]
  omega

theorem span_ofNat {k : Nat} (hk : k < 128) : span (UInt8.ofNat k) = k + 1 := by
  rw [span, UInt8.toNat_ofNat', Nat.mod_eq_of_lt (show k < 2 ^ 8 by omega), Nat.mod_eq_of_lt hk]

theorem ofNat_ne_zero {k : Nat} (hpos : 0 < k) (hk : k < 128) : UInt8.ofNat k ≠ 0 := by
  intro hzero
  have hnat := congrArg UInt8.toNat hzero
  rw [UInt8.toNat_ofNat', Nat.mod_eq_of_lt (by omega)] at hnat
  exact absurd hnat (Nat.ne_of_gt hpos)

theorem write_byte (m : Mem) (p i : Nat) (l : UInt8) : m.write p [l] i = if i = p then l else m i := by
  split
  · subst i
    rw [Mem.write_of_mem (Nat.le_refl _) (Nat.lt_succ_self _), Nat.sub_self]
    rfl
  · rcases Nat.lt_or_ge i p with hlt | hge
    · exact Mem.write_of_lt _ hlt
    · exact Mem.write_of_le (by simp; omega)

/-- The memory after a call: the chain is whole, the blocks are what they were, and a pointer that is not 0 is that of
a new block. -/
structure Sound (dev : Device) (m : Mem) (n : Nat) (r : Mem × Nat) : Prop where
  chain : ∃ q, Chained dev r.1 q
  live : ∀ b, Live dev m b → Live dev r.1 b
  fresh : r.2 ≠ 0 → ∀ data : Bytes, data.length = n → r.1.slice r.2 n = data → Live dev r.1 ⟨r.2, data⟩
  unused : r.2 ≠ 0 → isUsed (m (r.2 - 1)) = false

theorem sound_of_run (hchain : Chained dev m q) (head : Walk m IsChunk dev.offset start)
    (run : Walk m IsFree start p) (hfree : isUsed (m start) = false) (hbelow : ∀ i, i < start → m' i = m i)
    (hused : isUsed (m' start) = true) (hspan : n < span (m' start))
    (hpast : Walk m' IsChunk start p ∧ (∀ i, p ≤ i → m' i = m i) ∨
      p = q ∧ ∃ q', Walk m' IsChunk start q' ∧ m' q' = 0 ∧ q' ≤ dev.last) : Sound dev m n (m', start + 1) where
  chain := by
    have hhead : Walk m' IsChunk dev.offset start := head.congr fun i _ hi => hbelow i hi
    obtain ⟨hwalk, hsame⟩ | ⟨-, q', hwalk, hmarker, hinside⟩ := hpast
    · have hrest := hchain.rest (head.trans (run.mono fun _ hl => hl.1))
      have hle := hrest.le
      exact ⟨q, (hhead.trans hwalk).trans (hrest.congr fun i hi _ => hsame i hi),
        (hsame q hle).trans hchain.marker, hchain.inside, hchain.nonempty⟩
    · exact ⟨q', hhead.trans hwalk, hmarker, hinside, hchain.nonempty⟩
  live := by
    intro b hb
    refine hb.kept head run hfree hbelow fun hwalk => ?_
    obtain hkept | ⟨rfl, -⟩ := hpast
    · exact hkept
    · -- behind the marker there is no block
      have hused := hb.used
      have hstop := hwalk.stop (Q := IsChunk) (.refl p) fun hp => hp hchain.marker
      have heq : b.ptr - 1 = p := Nat.le_antisymm hstop.le hwalk.le
      rw [heq, hchain.marker] at hused
      contradiction
  fresh := by
    intro _ data hlength hdata
    have hhead : Walk m' IsChunk dev.offset start := head.congr fun i _ hi => hbelow i hi
    subst hlength
    exact ⟨Nat.succ_pos _, hhead, hused, hspan, hdata⟩
  unused := fun _ => hfree

theorem unused_of_run (run : Walk m IsFree start p) (hp : start < p ∨ m p = 0) : isUsed (m start) = false := by
  cases run with
  | refl =>
    obtain hlt | hzero := hp
    · omega
    · rw [hzero]
      rfl
  | step hfree _ => exact hfree.2

theorem Outcome.sound {r : Mem × Nat} (h : Outcome dev m n q r) (hchain : Chained dev m q) (hn : n < 128)
    (hwrap : ∀ start p, First dev m n q start p → p - start < n + 1 + minChunkSize → p - start ≤ 128) :
    Sound dev m n r := by
  cases h with
  | tail start head run room =>
    have hstart : ((m.write start [UInt8.ofNat n ||| chunkUsed]).write (start + 1 + n) [0]) start =
        UInt8.ofNat n ||| chunkUsed := by
      rw [write_byte, if_neg (by omega), write_byte, if_pos rfl]
    refine sound_of_run hchain head run (unused_of_run run (.inr hchain.marker)) (fun i hi => ?_) ?_ ?_
      (.inr ⟨rfl, start + 1 + n, ?_, ?_, ?_⟩)
    · rw [write_byte, if_neg (by omega), write_byte, if_neg (by omega)]
    · rw [hstart, isUsed_header hn]
    · rw [hstart, span_header hn]
      omega
    · have hsingle := Walk.single (P := IsChunk) (hstart ▸ isChunk_of_isUsed (isUsed_header hn))
      rwa [hstart, span_header hn, show start + (n + 1) = start + 1 + n by omega] at hsingle
    · rw [write_byte, if_pos rfl]
    · omega
  | fill start p first slack =>
    have hfits := first.fits
    have hshort := hwrap start p first slack
    have hstart : (m.write start [UInt8.ofNat (p - start - 1) ||| chunkUsed]) start =
        UInt8.ofNat (p - start - 1) ||| chunkUsed := by
      rw [write_byte, if_pos rfl]
    refine sound_of_run hchain first.head first.run (unused_of_run first.run (.inl (by omega))) (fun i hi => ?_) ?_ ?_
      (.inl ⟨?_, fun i hi => ?_⟩)
    · rw [write_byte, if_neg (by omega)]
    · rw [hstart, isUsed_header (by omega)]
    · rw [hstart, span_header (by omega)]
      omega
    · have hsingle := Walk.single (P := IsChunk) (hstart ▸ isChunk_of_isUsed (isUsed_header (by omega)))
      rwa [hstart, span_header (by omega), show start + (p - start - 1 + 1) = p by omega] at hsingle
    · rw [write_byte, if_neg (by omega)]
  | split start p first slack =>
    have hbound := first.bound
    unfold minChunkSize at slack
    have hstart : ((m.write (start + n + 1) [UInt8.ofNat (p - start - (n + 1) - 1)]).write start
        [UInt8.ofNat n ||| chunkUsed]) start = UInt8.ofNat n ||| chunkUsed := by
      rw [write_byte, if_pos rfl]
    have hmid : ((m.write (start + n + 1) [UInt8.ofNat (p - start - (n + 1) - 1)]).write start
        [UInt8.ofNat n ||| chunkUsed]) (start + n + 1) = UInt8.ofNat (p - start - (n + 1) - 1) := by
      rw [write_byte, if_neg (by omega), write_byte, if_pos rfl]
    refine sound_of_run hchain first.head first.run (unused_of_run first.run (.inl (by omega))) (fun i hi => ?_) ?_ ?_
      (.inl ⟨?_, fun i hi => ?_⟩)
    · rw [write_byte, if_neg (by omega), write_byte, if_neg (by omega)]
    · rw [hstart, isUsed_header hn]
    · rw [hstart, span_header hn]
      omega
    · have hhead := Walk.single (P := IsChunk) (hstart ▸ isChunk_of_isUsed (isUsed_header hn))
      have htail := Walk.single (P := IsChunk) (hmid ▸ ofNat_ne_zero (k := p - start - (n + 1) - 1) (by omega) (by omega))
      rw [hstart, span_header hn, show start + (n + 1) = start + n + 1 by omega] at hhead
      rw [hmid, span_ofNat (by omega), show start + n + 1 + (p - start - (n + 1) - 1 + 1) = p by omega] at htail
      exact hhead.trans htail
    · rw [write_byte, if_neg (by omega), write_byte, if_neg (by omega)]
  | fail only => exact ⟨⟨q, hchain⟩, fun _ hb => hb, fun hne => absurd rfl hne, fun hne => absurd rfl hne⟩

theorem Chained.congr_headers (h : Chained dev m q) (hsame : ∀ i, Walk m IsChunk dev.offset i → m' i = m i) :
    Chained dev m' q :=
  ⟨h.walk.headers fun i hi _ => hsame i hi, (hsame q h.walk).trans h.marker, h.inside, h.nonempty⟩

theorem Live.header_outside (h : Live dev m b) (ha : Walk m IsChunk dev.offset a) :
    a < b.ptr ∨ b.ptr + b.data.length ≤ a := by
  have hpos := h.ptr_pos
  have hlength := h.length_lt
  obtain rfl | hle | hle := h.header ha
  · exact .inl (by omega)
  · exact .inl (by omega)
  · exact .inr (by omega)

theorem Live.apart {b' : Block} (h : Live dev m b) (h' : Live dev m b') (hne : b.ptr ≠ b'.ptr) :
    b'.ptr - 1 + span (m (b'.ptr - 1)) ≤ b.ptr - 1 ∨ b.ptr - 1 + span (m (b.ptr - 1)) ≤ b'.ptr - 1 := by
  have hpos := h.ptr_pos
  have hpos' := h'.ptr_pos
  obtain heq | hle := h.header h'.walk
  · omega
  · exact hle

section Write

variable {data : Bytes} {b' : Block}

theorem Live.write_header (h : Live dev m b) (hlength : data.length = b.data.length)
    (ha : Walk m IsChunk dev.offset a) : m.write b.ptr data a = m a := by
  obtain hlt | hle := h.header_outside ha
  · exact Mem.write_of_lt _ hlt
  · exact Mem.write_of_le (hlength ▸ hle)

theorem Live.write_chain (h : Live dev m b) (hlength : data.length = b.data.length) (hchain : Chained dev m q) :
    Chained dev (m.write b.ptr data) q :=
  hchain.congr_headers fun _ hi => h.write_header hlength hi

theorem Live.write_self (h : Live dev m b) (hlength : data.length = b.data.length) :
    Live dev (m.write b.ptr data) ⟨b.ptr, data⟩ := by
  have hheader := h.write_header hlength h.walk
  have hlt := h.length_lt
  refine ⟨h.ptr_pos, h.walk.headers fun i hi _ => h.write_header hlength hi, hheader ▸ h.used, ?_,
    Mem.slice_write_self _ _ _⟩
  show data.length < span (m.write b.ptr data (b.ptr - 1))
  rw [hheader, hlength]
  exact hlt

theorem Live.write_other (h : Live dev m b) (hlength : data.length = b.data.length) (h' : Live dev m b')
    (hne : b.ptr ≠ b'.ptr) : Live dev (m.write b.ptr data) b' := by
  have hpos := h.ptr_pos
  have hlt := h.length_lt
  refine h'.congr (h'.walk.headers fun i hi _ => h.write_header hlength hi) fun i hle hi => ?_
  obtain hbehind | hbefore := h.apart h' hne
  · exact Mem.write_of_lt _ (by omega)
  · exact Mem.write_of_le (by omega)

end Write

section Free

theorem toNat_free (l : UInt8) : (l &&& ~~~chunkUsed).toNat = l.toNat % 128 := by
  rw [show ~~~chunkUsed = (127 : UInt8) from rfl, UInt8.toNat_and]
  exact Nat.and_two_pow_sub_one_eq_mod l.toNat 7

theorem span_free (l : UInt8) : span (l &&& ~~~chunkUsed) = span l := by
  rw [span, span, toNat_free, Nat.mod_mod]

theorem isChunk_free {l : UInt8} (h : IsChunk l) (hne : l ≠ chunkUsed) : IsChunk (l &&& ~~~chunkUsed) := by
  intro hzero
  have hmod := congrArg UInt8.toNat hzero
  rw [toNat_free] at hmod
  have hlt := l.toNat_lt
  have hcases : l.toNat = 0 ∨ l.toNat = 128 := by
    change l.toNat % 128 = 0 at hmod
    omega
  obtain hnat | hnat := hcases
  · exact h (UInt8.toNat_inj.mp hnat)
  · exact hne (UInt8.toNat_inj.mp hnat)

variable {b' : Block}

theorem Live.inside (h : Live dev m b) (hchain : Chained dev m q) :
    dev.offset < b.ptr ∧ b.ptr - 1 + span (m (b.ptr - 1)) ≤ dev.last := by
  have hpos := h.ptr_pos
  have hstart := h.walk.le
  have hend := (hchain.rest h.step).le
  have hinside := hchain.inside
  omega

theorem Live.smfree_eq (h : Live dev m b) (hchain : Chained dev m q) :
    smfree dev m b.ptr = m.write (b.ptr - 1) [m (b.ptr - 1) &&& ~~~chunkUsed] := by
  obtain ⟨hlt, hle⟩ := h.inside hchain
  have hspan : 0 < span (m (b.ptr - 1)) := Nat.succ_pos _
  unfold Device.last at hle
  rw [smfree, if_pos ⟨hlt, by omega⟩]

theorem Live.free_walk (h : Live dev m b) (hchain : Chained dev m q) (hne : m (b.ptr - 1) ≠ chunkUsed) {s e : Nat}
    (hwalk : Walk m IsChunk s e) : Walk (smfree dev m b.ptr) IsChunk s e := by
  rw [h.smfree_eq hchain]
  refine hwalk.keep fun i hi => ?_
  rw [write_byte]
  split
  · subst i
    exact ⟨isChunk_free hi hne, span_free _⟩
  · exact ⟨hi, rfl⟩

theorem Live.free_chain (h : Live dev m b) (hchain : Chained dev m q) (hne : m (b.ptr - 1) ≠ chunkUsed) :
    Chained dev (smfree dev m b.ptr) q := by
  refine ⟨h.free_walk hchain hne hchain.walk, ?_, hchain.inside, hchain.nonempty⟩
  rw [h.smfree_eq hchain, write_byte, if_neg]
  · exact hchain.marker
  · rintro rfl
    have hused := h.used
    rw [hchain.marker] at hused
    contradiction

theorem Live.free_other (h : Live dev m b) (hchain : Chained dev m q) (hne : m (b.ptr - 1) ≠ chunkUsed)
    (h' : Live dev m b') (hptr : b.ptr ≠ b'.ptr) : Live dev (smfree dev m b.ptr) b' := by
  have hspan : 0 < span (m (b.ptr - 1)) := Nat.succ_pos _
  refine h'.congr (h.free_walk hchain hne h'.walk) fun i hle hi => ?_
  rw [h.smfree_eq hchain, write_byte, if_neg]
  obtain hbehind | hbefore := h.apart h' hptr <;> omega

end Free

end Blocks

/-- The device and the blocks its callers hold. -/
structure Heap where
  mem : Mem
  live : List Block

inductive Op where
  | smalloc (datalen : Nat)
  | smallocWrite (data : Bytes)
  | smfree (ptr : Nat)

def Heap.add (h : Heap) (m : Mem) (ptr : Nat) (data : Bytes) : Heap :=
  ⟨m, if ptr ≠ 0 then ⟨ptr, data⟩ :: h.live else h.live⟩

def step (dev : Device) (h : Heap) : Op → Option Heap
  | .smalloc datalen => (smalloc dev h.mem datalen).map fun r => h.add r.1 r.2 (r.1.slice r.2 datalen)
  | .smallocWrite data => (smallocWrite dev h.mem data).map fun r => h.add r.1 r.2 data
  | .smfree ptr => some ⟨smfree dev h.mem ptr, h.live.filter fun b => b.ptr ≠ ptr⟩

/-- The calls that `smalloc` and `smfree` are made for. -/
def Admitted (h : Heap) : Op → Prop
  | .smalloc datalen => datalen < 128
  | .smallocWrite data => data.length < 128
  | .smfree ptr => ∃ b ∈ h.live, b.ptr = ptr

/-- No run that is taken as a whole is too long for a header, and the request does not need the run of free chunks
up to a marker on the last byte. -/
structure Allocates (dev : Device) (m : Mem) (n : Nat) : Prop where
  datalen_lt : n < 128
  noWrap : ∀ q start p, Chained dev m q → First dev m n q start p → p - start < n + 1 + minChunkSize → p - start ≤ 128
  notLast : ∀ q, Chained dev m q → q = dev.last → (∃ s e, Fits dev m n q s e) → ∃ s e, Fits dev m n q s e ∧ e ≠ q

/-- A chunk without bytes is not freed. -/
def Meets (dev : Device) (h : Heap) : Op → Prop
  | .smalloc datalen => Allocates dev h.mem datalen
  | .smallocWrite data => Allocates dev h.mem data.length
  | .smfree ptr => (∃ b ∈ h.live, b.ptr = ptr) ∧ h.mem (ptr - 1) ≠ chunkUsed

inductive Reaches (dev : Device) (C : Heap → Op → Prop) (h₀ : Heap) : Heap → Prop
  | start : Reaches dev C h₀ h₀
  | step {h h' : Heap} (before : Reaches dev C h₀ h) (op : Op) (hop : C h op) (hstep : step dev h op = some h') :
      Reaches dev C h₀ h'

/-- The chain leads to the marker inside the device, and the blocks are apart, inside the device, free of headers and
hold what was written. -/
structure Good (dev : Device) (h : Heap) : Prop where
  chain : ∃ q, Chained dev h.mem q
  apart : h.live.Pairwise fun b b' => b.ptr + b.data.length < b'.ptr ∨ b'.ptr + b'.data.length < b.ptr
  inside : ∀ b ∈ h.live, dev.offset < b.ptr ∧ b.ptr + b.data.length ≤ dev.offset + dev.size
  headers : ∀ b ∈ h.live, ∀ a, Walk h.mem IsChunk dev.offset a → a < b.ptr ∨ b.ptr + b.data.length ≤ a
  contents : ∀ b ∈ h.live, h.mem.slice b.ptr b.data.length = b.data

/-- The call returns, and with a place if there is one. -/
def Served (dev : Device) (m : Mem) (n : Nat) : Prop :=
  ∃ r, smalloc dev m n = some r ∧ ∀ q s e, Chained dev m q → Fits dev m n q s e → r.2 ≠ 0

structure Inv (dev : Device) (h : Heap) : Prop where
  chain : ∃ q, Chained dev h.mem q
  live : ∀ b ∈ h.live, Live dev h.mem b
  distinct : h.live.Pairwise fun b b' => b.ptr ≠ b'.ptr

section Run

variable {dev : Device} {h h' : Heap} {op : Op} {m : Mem} {n q : Nat}

theorem smalloc_sound (hchain : Chained dev m q) (h : Allocates dev m n) :
    ∃ r, smalloc dev m n = some r ∧ Sound dev m n r := by
  obtain ⟨r, hr, houtcome⟩ := smalloc_outcome hchain
  exact ⟨r, hr, houtcome.sound hchain h.datalen_lt fun start p => h.noWrap q start p hchain⟩

theorem served (h : Allocates dev m n) (hchain : Chained dev m q) : Served dev m n := by
  obtain ⟨r, hr, -⟩ := smalloc_outcome hchain
  refine ⟨r, hr, fun q s e hchain hfits hzero => ?_⟩
  obtain ⟨r', hr', houtcome⟩ := smalloc_outcome (n := n) hchain
  obtain rfl : r' = r := Option.some.inj (hr'.symm.trans hr)
  cases houtcome with
  | fail only =>
    obtain ⟨-, hlast⟩ := only s e hfits
    obtain ⟨s, e, hfits, hne⟩ := h.notLast q hchain hlast ⟨s, e, hfits⟩
    exact hne (only s e hfits).1
  | tail => exact absurd hzero (Nat.succ_ne_zero _)
  | fill => exact absurd hzero (Nat.succ_ne_zero _)
  | split => exact absurd hzero (Nat.succ_ne_zero _)

theorem Sound.ptr_ne {r : Mem × Nat} (h : Sound dev m n r) {b : Block} (hb : Live dev m b) (hne : r.2 ≠ 0) :
    r.2 ≠ b.ptr := by
  intro heq
  have hunused := h.unused hne
  rw [heq, hb.used] at hunused
  contradiction

theorem Inv.add (hinv : Inv dev h) {r : Mem × Nat} (hsound : Sound dev h.mem n r) {data : Bytes}
    (hlength : data.length = n) {m' : Mem} (hm : m' = if r.2 ≠ 0 then r.1.write r.2 data else r.1) :
    Inv dev (h.add m' r.2 data) := by
  obtain ⟨q, hchain⟩ := hsound.chain
  by_cases hzero : r.2 = 0
  · obtain rfl : m' = r.1 := by simpa [hzero] using hm
    have hadd : h.add r.1 r.2 data = ⟨r.1, h.live⟩ := by simp [Heap.add, hzero]
    rw [hadd]
    exact ⟨⟨q, hchain⟩, fun b hb => hsound.live b (hinv.live b hb), hinv.distinct⟩
  · obtain rfl : m' = r.1.write r.2 data := by simpa [hzero] using hm
    have hadd : h.add (r.1.write r.2 data) r.2 data = ⟨r.1.write r.2 data, ⟨r.2, data⟩ :: h.live⟩ := by
      simp [Heap.add, hzero]
    have hnew : Live dev r.1 ⟨r.2, r.1.slice r.2 n⟩ := hsound.fresh hzero _ (by simp) rfl
    have hlen : data.length = (r.1.slice r.2 n).length := by rw [Mem.length_slice, hlength]
    have hne : ∀ b ∈ h.live, r.2 ≠ b.ptr := fun b hb => hsound.ptr_ne (hinv.live b hb) hzero
    rw [hadd]
    refine ⟨⟨q, hnew.write_chain hlen hchain⟩, fun b hb => ?_, .cons hne hinv.distinct⟩
    rcases List.mem_cons.mp hb with rfl | hb
    · exact hnew.write_self hlen
    · exact hnew.write_other hlen (hsound.live b (hinv.live b hb)) (hne b hb)

theorem Inv.step (hinv : Inv dev h) (hop : Meets dev h op) (hstep : step dev h op = some h') : Inv dev h' := by
  obtain ⟨q, hchain⟩ := hinv.chain
  cases op with
  | smalloc datalen =>
    obtain ⟨r, hr, hsound⟩ := smalloc_sound hchain hop
    simp only [SmallMemory.step, hr, Option.map_some, Option.some.injEq] at hstep
    subst hstep
    refine hinv.add hsound (by simp) ?_
    split
    · have hwrite := Mem.write_slice_self r.1 r.2 datalen
      exact hwrite.symm
    · rfl
  | smallocWrite data =>
    obtain ⟨r, hr, hsound⟩ := smalloc_sound hchain hop
    simp only [SmallMemory.step, smallocWrite, hr, Option.bind_eq_bind, Option.bind_some, Option.pure_def,
      Option.map_some, Option.some.injEq] at hstep
    subst hstep
    exact hinv.add hsound rfl rfl
  | smfree ptr =>
    obtain ⟨⟨b, hb, rfl⟩, hne⟩ := hop
    have hlive := hinv.live b hb
    simp only [SmallMemory.step, Option.some.injEq] at hstep
    subst hstep
    refine ⟨⟨q, hlive.free_chain hchain hne⟩, fun b' hb' => ?_, hinv.distinct.filter _⟩
    obtain ⟨hmem, hptr⟩ := List.mem_filter.mp hb'
    exact hlive.free_other hchain hne (hinv.live b' hmem) fun heq => by simp [heq] at hptr

theorem Inv.format (hsize : 0 < dev.size) : Inv dev ⟨smformat dev m, []⟩ := by
  refine ⟨⟨dev.offset, .refl _, ?_, ?_, hsize⟩, fun b hb => absurd hb (List.not_mem_nil), .nil⟩
  · show m.write dev.offset [0] dev.offset = 0
    rw [write_byte, if_pos rfl]
  · unfold Device.last
    omega

theorem Inv.good (hinv : Inv dev h) : Good dev h := by
  obtain ⟨q, hchain⟩ := hinv.chain
  refine ⟨hinv.chain, ?_, fun b hb => ?_, fun b hb a ha => (hinv.live b hb).header_outside ha,
    fun b hb => (hinv.live b hb).data⟩
  · refine hinv.distinct.imp_of_mem fun {b b'} hb hb' hne => ?_
    have hpos := (hinv.live b hb).ptr_pos
    have hpos' := (hinv.live b' hb').ptr_pos
    have hlength := (hinv.live b hb).length_lt
    have hlength' := (hinv.live b' hb').length_lt
    obtain hle | hle := (hinv.live b hb).apart (hinv.live b' hb') hne <;> omega
  · obtain ⟨hstart, hend⟩ := (hinv.live b hb).inside hchain
    have hlength := (hinv.live b hb).length_lt
    have hnonempty := hchain.nonempty
    unfold Device.last at hend
    omega

theorem Reaches.inv (hsize : 0 < dev.size) (hreach : Reaches dev (Meets dev) ⟨smformat dev m, []⟩ h) : Inv dev h := by
  induction hreach with
  | start => exact .format hsize
  | step _ op hop hstep ih => exact ih.step hop hstep

/-- On a device with at least one byte every run of calls that meet the condition keeps the heap good, and the next
such request finds a place if there is one. -/
theorem reaches_good (hsize : 0 < dev.size) (hreach : Reaches dev (Meets dev) ⟨smformat dev m, []⟩ h) :
    Good dev h ∧ ∀ n, Allocates dev h.mem n → Served dev h.mem n := by
  have hinv := hreach.inv hsize
  obtain ⟨q, hchain⟩ := hinv.chain
  exact ⟨hinv.good, fun n hn => served hn hchain⟩

/-- On a device of at most 128 bytes every run fits a header. -/
theorem Chained.allocates {q : Nat} (hchain : Chained dev m q) (hq : q ≠ dev.last) (hn : n < 128) (hsize : dev.size ≤ 128) :
    Allocates dev m n := by
  refine ⟨hn, fun q' start p hchain' hfirst _ => ?_, fun q' hchain' hlast _ => absurd ?_ hq⟩
  · have hstart := hfirst.head.le
    have hend := hfirst.rest.le
    have hinside := hchain'.inside
    unfold Device.last at hinside
    omega
  · rw [← hlast]
    cases hchain.walk.stop hchain'.walk fun h => h hchain'.marker with
    | refl => rfl
    | step h _ => exact absurd hchain.marker h

end Run

def sixteenBytes : Device := ⟨1, 16, by decide, by decide⟩

/-- Two blocks are made, the first is freed, and a smaller one is made in its place. -/
theorem reaches_good_sixteenBytes : ∃ h, h.live = [⟨2, [4]⟩, ⟨6, [1, 2]⟩] ∧ Good sixteenBytes h := by
  have hstart : Reaches sixteenBytes (Meets sixteenBytes) ⟨smformat sixteenBytes fun _ => 0, []⟩
      ⟨smformat sixteenBytes fun _ => 0, []⟩ := .start
  have hallocates : ∀ {m q n}, Chained sixteenBytes m q → q ≠ 16 → n < 128 → Allocates sixteenBytes m n :=
    fun hchain hq hn => hchain.allocates hq hn (by decide)
  have hfirst := hstart.step (.smallocWrite [7, 8, 9])
    (hallocates ⟨.refl 1, rfl, by decide, by decide⟩ (by decide) (by decide)) rfl
  have hsecond := hfirst.step (.smallocWrite [1, 2])
    (hallocates ⟨.step (by decide) (.refl 5), rfl, by decide, by decide⟩ (by decide) (by decide)) rfl
  have hfreed := hsecond.step (.smfree 2) ⟨⟨⟨2, [7, 8, 9]⟩, by decide, rfl⟩, by decide⟩ rfl
  have hagain := hfreed.step (.smallocWrite [4])
    (hallocates ⟨.step (by decide) (.step (by decide) (.refl 8)), rfl, by decide, by decide⟩ (by decide) (by decide)) rfl
  exact ⟨_, rfl, (reaches_good (by decide) hagain).1⟩

/-- A block without bytes is freed: its header becomes the end of the chain, and the next block is lost. -/
theorem freed_empty_block_not_good : ¬∀ (dev : Device) (m : Mem) (h : Heap), 0 < dev.size →
    Reaches dev Admitted ⟨smformat dev m, []⟩ h → Good dev h ∧ ∀ n, n < 128 → Served dev h.mem n := by
  intro hall
  have hstart : Reaches sixteenBytes Admitted ⟨smformat sixteenBytes fun _ => 0, []⟩
      ⟨smformat sixteenBytes fun _ => 0, []⟩ := .start
  have hempty := hstart.step (.smallocWrite []) (show 0 < 128 by decide) rfl
  have hblock := hempty.step (.smallocWrite [1, 2, 3]) (show 3 < 128 by decide) rfl
  have hfreed := hblock.step (.smfree 2) ⟨⟨2, []⟩, by decide, rfl⟩ rfl
  have hlost := hfreed.step (.smallocWrite [9]) (show 1 < 128 by decide) rfl
  have hcontents := (hall _ _ _ (by decide) hlost).1.contents ⟨3, [1, 2, 3]⟩ (by decide)
  exact absurd hcontents (by decide)

end ZipGateway.SmallMemory
