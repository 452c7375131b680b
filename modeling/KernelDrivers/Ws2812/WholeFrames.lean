import KernelDrivers.Ws2812.CallsAlone

/-!
# Frames of calls at the same time

The lock is held from the first symbol of a frame to its last, so frames reach the line, or the
SPI core, whole however the calls interleave. A call stores its last byte before it takes the lock,
so when all calls have returned the last frame is of the rows in memory.
-/

namespace KernelDrivers.Ws2812.Interleaved
open Lib

/-! ## Frames on the line -/

section Frames

variable {φ : Type} (d : SymbolDriver φ)

/-- A symbol for one of the bytes a row may hold. -/
def SymbolOfCalls (calls : List Call) (leds : Rows) (i : Fin 16) (j : Fin 24) (x : φ) : Prop :=
  ∃ y, Mixed d calls leds i j y ∧ d.symbolOf y = x

def Thread.frames (t : Thread) : Nat := if t.pc = .returned then 1 else 0

/-- What was sent since `s₀`: whole frames, one for each call that has returned, and `part` of
another while a call has the lock. When no call has a frame to send, what was sent is what the
rows hold. -/
structure Sent (calls : List Call) (s₀ : Shared φ) (frames : List (List φ)) (part : List φ)
    (p : Pool (Shared φ) Thread) : Prop where
  wire : p.shared.wire = s₀.wire ++ frames.flatten ++ part
  whole : ∀ frame ∈ frames, frame.length = 384
  within : part.length ≤ 384
  symbols : ∀ frame ∈ frames ++ [part], ∀ (i : Fin 16) (j : Fin 24) x,
    frame[24 * i.val + j.val]? = some x → SymbolOfCalls d calls s₀.pixels.ledsPixelData i j x
  count : frames.length = total Thread.frames p.threads
  holder : ∀ (k : Nat) t, p.threads[k]? = some t → t.Holds → part.length = t.pc.position
  free : (∀ t ∈ p.threads, ¬ t.Holds) → part = []
  underway : (∀ t ∈ p.threads, ¬ t.Pending) →
    part = (d.frame p.shared.pixels.ledsPixelData).take part.length
  latest : (∀ t ∈ p.threads, ¬ t.Pending) → (∀ t ∈ p.threads, ¬ t.Holds) →
    ∀ frame, frames.getLast? = some frame → frame = d.frame p.shared.pixels.ledsPixelData

variable {d} {calls : List Call} {s₀ : Shared φ} {frames : List (List φ)} {part : List φ}
  {p : Pool (Shared φ) Thread} {k : Nat} {t t' : Thread} {s' : Shared φ}

theorem forall_mem_of_set {P : Thread → Prop} {ts : List Thread} (ht : ts[k]? = some t) (hP : P t)
    (h : ∀ u ∈ ts.set k t', P u) : ∀ u ∈ ts, P u := by
  intro u hu
  obtain ⟨m, hm⟩ := List.mem_iff_getElem?.mp hu
  by_cases hmk : m = k
  · subst hmk
    obtain rfl : t = u := Option.some.inj (ht.symm.trans hm)
    exact hP
  · apply h u
    exact List.mem_iff_getElem?.mpr ⟨m, by rwa [List.getElem?_set_ne (Ne.symm hmk)]⟩

theorem mem_set_self {ts : List Thread} (ht : ts[k]? = some t) : t' ∈ ts.set k t' :=
  List.mem_set (List.getElem?_eq_some_iff.mp ht).1 t'

/-- A statement before the lock sends nothing, and its call is still to send. -/
theorem Sent.pending_step (h : Sent d calls s₀ frames part p) (ht : p.threads[k]? = some t)
    (hwire : s'.wire = p.shared.wire) (hnot : ¬ t.Holds) (hnot' : ¬ t'.Holds)
    (hpending : t'.Pending) (hframes : t'.frames = t.frames) :
    Sent d calls s₀ frames part ⟨s', p.threads.set k t'⟩ where
  wire := hwire.trans h.wire
  whole := h.whole
  within := h.within
  symbols := h.symbols
  count := by
    have hset := total_set Thread.frames ht t'
    have hcount := h.count
    simp only
    omega
  holder := by
    intro m u hu hholds
    rcases getElem?_set_cases hu with ⟨-, rfl⟩ | ⟨-, hu⟩
    · exact absurd hholds hnot'
    · exact h.holder m u hu hholds
  free := fun hfree => h.free (forall_mem_of_set ht hnot hfree)
  underway := fun hnone => absurd hpending (hnone t' (mem_set_self ht))
  latest := fun hnone => absurd hpending (hnone t' (mem_set_self ht))

theorem Sent.lock_step (h : Sent d calls s₀ frames part p) {call : Call}
    (ht : p.threads[k]? = some ⟨call, .lock⟩) (hfree : ∀ t ∈ p.threads, ¬ t.Holds) :
    Sent d calls s₀ frames part
      ⟨{ p.shared with locked := true }, p.threads.set k ⟨call, .send 0 0⟩⟩ := by
  obtain rfl := h.free hfree
  constructor
  · exact h.wire
  · exact h.whole
  · exact h.within
  · exact h.symbols
  · have hset := total_set Thread.frames ht ⟨call, .send 0 0⟩
    have hcount := h.count
    simp only [Thread.frames, reduceCtorEq, if_false] at hset
    simp only
    omega
  · intro m u hu hholds
    rcases getElem?_set_cases hu with ⟨-, rfl⟩ | ⟨-, hu⟩
    · rfl
    · exact absurd hholds (hfree u (List.mem_of_getElem? hu))
  · exact fun hnone => absurd trivial (hnone ⟨call, .send 0 0⟩ (mem_set_self ht))
  · exact fun _ => rfl
  · exact fun _ hnone => absurd trivial (hnone ⟨call, .send 0 0⟩ (mem_set_self ht))

theorem Sent.send_step (h : Sent d calls s₀ frames part p) {call : Call} {i : Fin 16} {j : Fin 24}
    (ht : p.threads[k]? = some ⟨call, .send i j⟩)
    (hothers : ∀ m u, m ≠ k → p.threads[m]? = some u → ¬ u.Holds)
    (hmixed : Mixed d calls s₀.pixels.ledsPixelData i j (p.shared.pixels.ledsPixelData i j)) :
    Sent d calls s₀ frames (part ++ [d.symbolOf (p.shared.pixels.ledsPixelData i j)])
      ⟨p.shared.emit (d.symbolOf (p.shared.pixels.ledsPixelData i j)),
        p.threads.set k ⟨call, afterSymbol i j⟩⟩ := by
  have hlength : part.length = 24 * i.val + j.val := h.holder k _ ht trivial
  have hself : (⟨call, afterSymbol i j⟩ : Thread) ∈ p.threads.set k ⟨call, afterSymbol i j⟩ :=
    mem_set_self ht
  constructor
  · simp [Shared.emit, h.wire]
  · exact h.whole
  · have hi := i.isLt
    have hj := j.isLt
    simp only [List.length_append, List.length_singleton]
    omega
  · intro frame hframe i' j' x hx
    rcases List.mem_append.mp hframe with hframe | hframe
    · exact h.symbols frame (List.mem_append_left _ hframe) i' j' x hx
    · obtain rfl := List.mem_singleton.mp hframe
      rcases Nat.lt_or_ge (24 * i'.val + j'.val) part.length with hlt | hge
      · rw [List.getElem?_append_left hlt] at hx
        exact h.symbols part (List.mem_append_right _ List.mem_cons_self) i' j' x hx
      · rw [List.getElem?_append_right hge] at hx
        rw [List.getElem?_singleton] at hx
        split at hx
        next hindex =>
          obtain rfl : i = i' := Fin.ext (by omega)
          obtain rfl : j = j' := Fin.ext (by omega)
          exact ⟨_, hmixed, Option.some.inj hx⟩
        next => cases hx
  · have hset := total_set Thread.frames ht ⟨call, afterSymbol i j⟩
    have hcount := h.count
    have hnew : Thread.frames ⟨call, afterSymbol i j⟩ = 0 := by
      simp only [Thread.frames, afterSymbol]
      grind
    simp only [Thread.frames, reduceCtorEq, if_false] at hset
    simp only [Thread.frames] at hnew
    simp only
    omega
  · intro m u hu hholds
    rcases getElem?_set_cases hu with ⟨-, rfl⟩ | ⟨hne, hu⟩
    · simp only [List.length_append, List.length_singleton, position_afterSymbol]
      omega
    · exact absurd hholds (hothers m u hne hu)
  · exact fun hnone => absurd (holds_symbol call i j) (hnone _ hself)
  · intro hnone
    have hbefore := h.underway (forall_mem_of_set ht id hnone)
    simp only [Shared.emit, List.length_append, List.length_singleton]
    rw [List.take_add_one, ← hbefore, hlength, frame_getElem?]
    rfl
  · exact fun _ hnone => absurd (holds_symbol call i j) (hnone _ hself)

theorem Sent.unlock_step (h : Sent d calls s₀ frames part p) {call : Call}
    (ht : p.threads[k]? = some ⟨call, .unlock⟩)
    (hothers : ∀ m u, m ≠ k → p.threads[m]? = some u → ¬ u.Holds) :
    Sent d calls s₀ (frames ++ [part]) []
      ⟨{ p.shared with locked := false }, p.threads.set k ⟨call, .returned⟩⟩ := by
  have hlength : part.length = 384 := h.holder k _ ht trivial
  constructor
  · simp [h.wire]
  · intro frame hframe
    rcases List.mem_append.mp hframe with hframe | hframe
    · exact h.whole frame hframe
    · rwa [List.mem_singleton.mp hframe]
  · exact Nat.zero_le _
  · intro frame hframe i j x hx
    rcases List.mem_append.mp hframe with hframe | hframe
    · exact h.symbols frame hframe i j x hx
    · rw [List.mem_singleton.mp hframe] at hx
      cases hx
  · have hset := total_set Thread.frames ht ⟨call, .returned⟩
    have hcount := h.count
    simp only [Thread.frames, reduceCtorEq, if_false, if_true] at hset
    simp only [List.length_append, List.length_singleton]
    omega
  · intro m u hu hholds
    rcases getElem?_set_cases hu with ⟨-, rfl⟩ | ⟨hne, hu⟩
    · exact hholds.elim
    · exact absurd hholds (hothers m u hne hu)
  · exact fun _ => rfl
  · exact fun _ => rfl
  · intro hnone _ frame hframe
    rw [List.getLast?_append_of_ne_nil _ (by simp), List.getLast?_singleton] at hframe
    obtain rfl := Option.some.inj hframe
    have hrows := h.underway (forall_mem_of_set ht id hnone)
    rw [hlength] at hrows
    exact hrows.trans (List.take_of_length_le (frame_length d _).le)

theorem Sent.start_step (h : Sent d calls s₀ frames part p) (call : Call) :
    Sent d calls s₀ frames part ⟨p.shared, p.threads ++ [enter call]⟩ where
  wire := h.wire
  whole := h.whole
  within := h.within
  symbols := h.symbols
  count := by simp [h.count, enter, Thread.frames]
  holder := by
    intro m u hu hholds
    rcases getElem?_append_cases hu with rfl | hu
    · exact hholds.elim
    · exact h.holder m u hu hholds
  free := fun hfree => h.free fun t ht => hfree t (List.mem_append_left _ ht)
  underway := fun hnone => absurd trivial (hnone (enter call) (by simp))
  latest := fun hnone => absurd trivial (hnone (enter call) (by simp))

end Frames

/-! ## Every interleaving -/

section Runs

variable {φ : Type} (d : SymbolDriver φ)

/-- One holder of the lock, what every call knows, where the rows' bytes come from, and what was
sent. -/
structure StripInv (calls : List Call) (s₀ : Shared φ) (p : Pool (Shared φ) Thread) : Prop where
  lock : LockInv Locked Thread.Holds p
  knows : ∀ t ∈ p.threads, Knows d calls t p.shared
  mixed : ∀ i j, Mixed d calls s₀.pixels.ledsPixelData i j (p.shared.pixels.ledsPixelData i j)
  sent : ∃ frames part, Sent d calls s₀ frames part p

variable {d}

theorem StripInv.step {calls : List Call} {s₀ : Shared φ} {p : Pool (Shared φ) Thread}
    (h : StripInv d calls s₀ p) {k : Nat} {t t' : Thread} {s' : Shared φ}
    (ht : p.threads[k]? = some t) (hst : Statement d p.shared t s' t') :
    StripInv d calls s₀ ⟨s', p.threads.set k t'⟩ := by
  have hknows := h.knows t (List.mem_of_getElem? ht)
  refine ⟨h.lock.set ht (lockStep_of_statement hst (h.lock.locked k t ht)), fun u hu => ?_,
    hst.mixed hknows h.mixed, ?_⟩
  · rcases List.mem_or_eq_of_mem_set hu with hu | rfl
    · exact (h.knows u hu).advance (hst.advances hknows)
    · exact hst.knows hknows
  · obtain ⟨frames, part, hsent⟩ := h.sent
    have hothers : t.Holds → ∀ m u, m ≠ k → p.threads[m]? = some u → ¬ u.Holds :=
      fun hholds m u hne hu hholds' => hne (h.lock.exclusive m k u t hu ht hholds' hholds)
    cases hst with
    | setColor call j =>
      refine ⟨frames, part, hsent.pending_step ht rfl id (by simp) (by simp) ?_⟩
      simp only [Thread.frames, afterColor]
      grind
    | load call rowIndex j =>
      exact ⟨frames, part, hsent.pending_step ht rfl id id trivial rfl⟩
    | store call rowIndex i j x hrow =>
      refine ⟨frames, part, hsent.pending_step ht rfl id (by simp) (by simp) ?_⟩
      simp only [Thread.frames, Call.afterPixel]
      grind
    | lock call hfree =>
      refine ⟨frames, part, hsent.lock_step ht fun u hu hholds => ?_⟩
      obtain ⟨m, hm⟩ := List.mem_iff_getElem?.mp hu
      have hlocked := h.lock.locked m u hm hholds
      rw [Locked, hfree] at hlocked
      cases hlocked
    | send call i j => exact ⟨frames, _, hsent.send_step ht (hothers trivial) (h.mixed i j)⟩
    | unlock call => exact ⟨_, [], hsent.unlock_step ht (hothers trivial)⟩

theorem StripInv.start {calls : List Call} {s₀ : Shared φ} {p : Pool (Shared φ) Thread}
    (h : StripInv d calls s₀ p) {call : Call} (hcall : call ∈ calls) :
    StripInv d calls s₀ ⟨p.shared, p.threads ++ [enter call]⟩ := by
  refine ⟨h.lock.append id id, fun u hu => ?_, h.mixed, ?_⟩
  · rcases List.mem_append.mp hu with hu | hu
    · exact h.knows u hu
    · obtain rfl := List.mem_singleton.mp hu
      refine ⟨hcall, fun j hj => absurd hj (Nat.not_lt_zero _), by rintro _ _ _ ⟨⟩, ?_⟩
      exact fun i j hstored => absurd hstored.2 (Nat.not_lt_zero _)
  · obtain ⟨frames, part, hsent⟩ := h.sent
    exact ⟨frames, part, hsent.start_step call⟩

theorem stripInv_of_run {s₀ : Shared φ} {moves : List (PoolMove Thread)}
    {q : Pool (Shared φ) Thread} {os : List Unit}
    (hrun : run (callsMove d) ⟨s₀, []⟩ moves = some (q, os)) :
    StripInv d (startedCalls moves) s₀ q := by
  have hinit : StripInv d (startedCalls moves) s₀ ⟨s₀, []⟩ := by
    refine ⟨⟨by simp, by simp⟩, by simp, fun i j => .inl rfl, [], [], ?_⟩
    constructor <;> simp
  have hok : Along (callsMove d)
      (fun _ move => ∀ t, move = .start t → t.call ∈ startedCalls moves) ⟨s₀, []⟩ moves := by
    refine along_of_forall _ _ fun move hmove _ t ht => ?_
    subst ht
    exact List.mem_filterMap.mpr ⟨_, hmove, rfl⟩
  refine run_along _ (fun p move q o hp hok hmove => ?_) hinit hok hrun
  cases move with
  | start t =>
    obtain ⟨s, hs, rfl⟩ := poolMove_start_eq_some.mp hmove
    obtain ⟨call, pc⟩ := t
    simp only [start] at hs
    split at hs
    · cases hs
      obtain rfl : pc = .setColor 0 := ‹_›
      exact hp.start (hok _ rfl)
    · cases hs
  | step k =>
    obtain ⟨t, s, t', ht, hst, rfl⟩ := poolMove_step_eq_some.mp hmove
    exact hp.step ht (statement_of_step hst)

end Runs

end KernelDrivers.Ws2812.Interleaved
