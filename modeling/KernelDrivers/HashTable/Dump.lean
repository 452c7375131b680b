import KernelDrivers.HashTable.Sessions

/-!
# Dumping a bucket

`DUMP` is asked for a bucket by its number. It searches the keys from 0 on for one that hashes
to this bucket and refuses the request when the key it finds is greater than 128. The product
of the key with the golden ratio spreads the keys 0 to 128 over 109 of the 128 buckets, so 19
buckets are refused although the table has them.
-/

namespace KernelDrivers.HashTable
open Lib

/-- The buckets that no key from 0 to 128 hashes to. -/
def refusedBuckets : List (Fin 128) :=
  [5, 18, 22, 25, 38, 44, 48, 55, 61, 67, 74, 77, 94, 97, 100, 104, 116, 123, 127]

/-! ## The search -/

section Search

variable {hashMin : Int32 → Fin 128} {n : Int32}

/-- The search stops at the first key of the bucket. -/
theorem findNbkt_found (fuel nbkt : Nat) {j : Nat} (hj : j < fuel)
    (h : Int32.ofNat (hashMin (Int32.ofNat (nbkt + j))) = n) :
    findNbkt hashMin n fuel nbkt ≤ nbkt + j ∧
      Int32.ofNat (hashMin (Int32.ofNat (findNbkt hashMin n fuel nbkt))) = n := by
  induction fuel generalizing nbkt j with
  | zero => omega
  | succ fuel ih =>
    unfold findNbkt
    split
    · next hhere => exact ⟨Nat.le_add_right _ _, hhere⟩
    · next hhere =>
      cases j with
      | zero => exact absurd h hhere
      | succ j =>
        obtain ⟨hle, hfound⟩ := ih (nbkt + 1) (j := j) (by omega) (by
          rwa [Nat.add_assoc, Nat.add_comm 1 j])
        exact ⟨by omega, hfound⟩

theorem start_le_findNbkt (hashMin : Int32 → Fin 128) (n : Int32) (fuel nbkt : Nat) :
    nbkt ≤ findNbkt hashMin n fuel nbkt := by
  induction fuel generalizing nbkt with
  | zero => exact Nat.le_refl _
  | succ fuel ih =>
    unfold findNbkt
    split
    · exact Nat.le_refl _
    · exact (Nat.le_succ nbkt).trans (ih (nbkt + 1))

/-- The search passes the keys of other buckets. -/
theorem le_findNbkt (fuel nbkt : Nat) {j : Nat} (hj : j ≤ fuel)
    (h : ∀ i < j, Int32.ofNat (hashMin (Int32.ofNat (nbkt + i))) ≠ n) :
    nbkt + j ≤ findNbkt hashMin n fuel nbkt := by
  induction j generalizing fuel nbkt with
  | zero => exact start_le_findNbkt hashMin n fuel nbkt
  | succ j ih =>
    obtain ⟨fuel, rfl⟩ : ∃ fuel', fuel = fuel' + 1 := ⟨fuel - 1, by omega⟩
    have hhere : Int32.ofNat (hashMin (Int32.ofNat nbkt)) ≠ n := h 0 (Nat.zero_lt_succ j)
    have hrest : ∀ i < j, Int32.ofNat (hashMin (Int32.ofNat (nbkt + 1 + i))) ≠ n := by
      intro i hi
      rw [Nat.add_assoc, Nat.add_comm 1 i]
      exact h (i + 1) (by omega)
    have htail := ih fuel (nbkt + 1) (by omega) hrest
    rw [findNbkt, if_neg hhere]
    omega

end Search

/-! ## The buckets the search accepts -/

theorem exists_key_of_not_refused :
    ∀ bkt : Fin 128, bkt ∉ refusedBuckets →
      ∃ key : Fin 129, hashMin7 (Int32.ofNat key) = bkt := by
  decide +kernel

theorem refused_of_le : ∀ key : Fin 129, hashMin7 (Int32.ofNat key) ∉ refusedBuckets := by
  decide +kernel

theorem ofNat_bucket_inj {bkt bkt' : Fin 128}
    (h : Int32.ofNat bkt = Int32.ofNat bkt') : bkt = bkt' := by
  have hint := congrArg Int32.toInt h
  rw [Int32.toInt_ofNat_of_lt (by omega), Int32.toInt_ofNat_of_lt (by omega)] at hint
  omega

/-- The number of a bucket is accepted exactly when the bucket is none of the 19. A key of the
bucket is then found. -/
theorem findNbkt_bucket (bkt : Fin 128) :
    let nbkt := findNbkt hashMin7 (Int32.ofNat bkt) 1000000 0
    (bkt ∉ refusedBuckets → nbkt ≤ 128 ∧ hashMin7 (Int32.ofNat nbkt) = bkt) ∧
    (bkt ∈ refusedBuckets → 128 < nbkt) := by
  constructor
  · intro hbkt
    obtain ⟨key, hkey⟩ := exists_key_of_not_refused bkt hbkt
    have hat : Int32.ofNat (hashMin7 (Int32.ofNat (0 + key))) = Int32.ofNat bkt := by
      rw [Nat.zero_add, hkey]
    obtain ⟨hle, hfound⟩ := findNbkt_found 1000000 0 (by omega) hat
    exact ⟨by omega, ofNat_bucket_inj hfound⟩
  · intro hbkt
    have hnone : ∀ i < 129, Int32.ofNat (hashMin7 (Int32.ofNat (0 + i))) ≠ Int32.ofNat bkt := by
      intro i hi hsame
      rw [Nat.zero_add] at hsame
      exact refused_of_le ⟨i, hi⟩ (ofNat_bucket_inj hsame ▸ hbkt)
    have hle := le_findNbkt 1000000 0 (by omega) hnone
    omega

/-- A number that is no bucket's is not found. -/
theorem findNbkt_outside {n : Int32} (h : ¬ (0 ≤ n.toInt ∧ n.toInt ≤ 127)) :
    128 < findNbkt hashMin7 n 1000000 0 := by
  have hnone : ∀ i < 129, Int32.ofNat (hashMin7 (Int32.ofNat (0 + i))) ≠ n := by
    rintro i - rfl
    rw [Int32.toInt_ofNat_of_lt (by omega)] at h
    omega
  have hle := le_findNbkt 1000000 0 (by omega) hnone
  omega

/-! ## The copy -/

/-- The loop copies up to eight objects of a chain one after the other. -/
theorem walk_dumpObject {xs : List HtObject} {c : Nat} (hc : c ≤ 8) (objects : Fin 8 → HtObject) :
    (walk dumpObject (c, objects) xs).1.1 = min 8 (c + xs.length) ∧
    (∀ i : Fin 8, i < c → (walk dumpObject (c, objects) xs).1.2 i = objects i) ∧
    ∀ k (hk : c + k < 8) (hx : k < xs.length),
      (walk dumpObject (c, objects) xs).1.2 ⟨c + k, hk⟩ = xs[k] := by
  induction xs generalizing c objects with
  | nil =>
    exact ⟨(Nat.min_eq_right hc).symm, fun _ _ => rfl, fun k _ hx => absurd hx (Nat.not_lt_zero k)⟩
  | cons o xs ih =>
    by_cases hlt : c < 8
    · have hstep : (walk dumpObject (c, objects) (o :: xs)).1 =
          (walk dumpObject (c + 1, Function.update objects ⟨c, hlt⟩ o) xs).1 := by
        simp [walk, dumpObject, hlt]
      obtain ⟨hcount, hbefore, hcopied⟩ :=
        ih (show c + 1 ≤ 8 by omega) (Function.update objects ⟨c, hlt⟩ o)
      rw [hstep]
      refine ⟨?_, fun i hi => ?_, fun k hk hx => ?_⟩
      · rw [hcount, List.length_cons]
        omega
      · rw [hbefore i (by omega)]
        exact Function.update_of_ne (Fin.ne_of_lt hi) _ _
      · cases k with
        | zero =>
          have hlast : (⟨c, hlt⟩ : Fin 8) < c + 1 := Nat.lt_succ_self c
          simpa using hbefore ⟨c, hlt⟩ hlast
        | succ k =>
          have hindex : c + (k + 1) = c + 1 + k := by omega
          simpa [hindex] using hcopied k (by omega) (Nat.lt_of_succ_lt_succ hx)
    · -- eight objects are copied and the loop is left
      have hstep : (walk dumpObject (c, objects) (o :: xs)).1 = (c, objects) := by
        simp [walk, dumpObject, hlt]
      rw [hstep]
      exact ⟨by simp only [List.length_cons]; omega, fun _ _ => rfl, fun k hk _ =>
        absurd hk (by omega)⟩

/-! ## What can be dumped -/

/-- A dump of the object's bucket returns 0 and the object is among those copied. -/
def Dumps (s : Session) (id : Nat) (m : Minor) (xs : List HtObject) (o : HtObject)
    (objectArray : Fin 8 → HtObject) : Prop :=
  ∃ s' arg, sessionOp hashMin7 s (id, m, .dump ⟨Int32.ofNat (hashMin7 o.key), objectArray⟩) =
    some (s', .dumped 0 arg) ∧ ∃ i : Fin 8, i < xs.length ∧ arg.objectArray i = o

theorem session_dump {s : Session} {id : Nat} {m : Minor} (hfile : (id, m) ∈ s.files)
    {t : ObjectTable} (ht : s.state.view s.state.currentDevNo = some t) (arg : DumpArg) :
    ∃ s', sessionOp hashMin7 s (id, m, .dump arg) =
      some (s', .dumped (dumpReply hashMin7 arg t).1 (dumpReply hashMin7 arg t).2) := by
  obtain ⟨s', hop, -⟩ := @fileOp_refines hashMin7 _ _ ht m (.dump arg) nofun
  exact ⟨_, sessionOp_eq_some.mpr ⟨hfile, s', hop, rfl⟩⟩

/-- In every state reached, an object whose bucket holds at most eight objects can be dumped
exactly when its bucket is none of the 19 refused ones. A dump of a bucket that does not exist
is refused and copies nothing. -/
theorem dumps_iff {ops : List SessionOp} {s : Session} {replies : List Reply}
    (hrun : run (sessionOp hashMin7) sessionInit ops = some (s, replies))
    {id : Nat} {m : Minor} (hfile : (id, m) ∈ s.files) {t : ObjectTable}
    (ht : s.state.view s.state.currentDevNo = some t) :
    (∀ bkt, ∀ o ∈ t bkt, (t bkt).length ≤ 8 → ∀ objectArray,
      Dumps s id m (t bkt) o objectArray ↔ hashMin7 o.key ∉ refusedBuckets) ∧
    ∀ arg : DumpArg, ¬ (0 ≤ arg.n.toInt ∧ arg.n.toInt ≤ 127) →
      ∃ s', sessionOp hashMin7 s (id, m, .dump arg) = some (s', .dumped (-EINVAL) arg) := by
  constructor
  · intro bkt o ho hlen objectArray
    obtain rfl := ((wellFormed_run hrun).tables _ t ht).inBucket bkt o ho
    obtain ⟨haccepted, hrefused⟩ := findNbkt_bucket (hashMin7 o.key)
    obtain ⟨s', hop⟩ := session_dump hfile ht ⟨Int32.ofNat (hashMin7 o.key), objectArray⟩
    constructor
    · rintro ⟨s₁, arg, hop₁, -⟩ hmem
      rw [hop₁, dumpReply, if_pos (hrefused hmem)] at hop
      simp [EINVAL] at hop
    · intro hbkt
      obtain ⟨hle, hkey⟩ := haccepted hbkt
      rw [dumpReply, if_neg (Nat.not_lt.mpr hle), hkey] at hop
      obtain ⟨k, hk, hget⟩ := List.getElem_of_mem ho
      refine ⟨s', _, hop, ⟨k, by omega⟩, hk, ?_⟩
      have hcopied := (walk_dumpObject (Nat.zero_le 8) objectArray).2.2 k (by omega) hk
      simpa [hget] using hcopied
  · intro arg hn
    obtain ⟨s', hop⟩ := session_dump hfile ht arg
    rw [dumpReply, if_pos (findNbkt_outside hn)] at hop
    exact ⟨s', hop⟩

/-- The key 1 goes to bucket 79, which is accepted. -/
theorem dumps_iff_key_one :
    ∃ s replies t, run (sessionOp hashMin7) sessionInit
        [(0, 0, .openFile), (0, 0, .writeFile ⟨1, 5⟩)] = some (s, replies) ∧
      s.state.view 0 = some t ∧ t 79 = [⟨1, 5⟩] ∧
      Dumps s 0 0 (t 79) ⟨1, 5⟩ fun _ => ⟨0, 0⟩ := by
  obtain ⟨s, replies, t, hrun, hfile, ht, hcur, hchain⟩ :
      ∃ s replies t, run (sessionOp hashMin7) sessionInit
        [(0, 0, .openFile), (0, 0, .writeFile ⟨1, 5⟩)] = some (s, replies) ∧
      (0, 0) ∈ s.files ∧ s.state.view 0 = some t ∧ s.state.currentDevNo = 0 ∧
      t 79 = [⟨1, 5⟩] :=
    ⟨_, _, _, rfl, by decide, rfl, rfl, rfl⟩
  refine ⟨s, replies, t, hrun, ht, hchain, ?_⟩
  refine ((dumps_iff hrun hfile (hcur ▸ ht)).1 79 ⟨1, 5⟩ ?_ ?_ fun _ => ⟨0, 0⟩).mpr ?_
  · simp [hchain]
  · simp [hchain]
  · decide

/-- Every object of a short bucket can be dumped, in every state reached. -/
def EntriesDumped : Prop :=
  ∀ (ops : List SessionOp) (s : Session) (replies : List Reply) (id : Nat) (m : Minor)
    (t : ObjectTable), run (sessionOp hashMin7) sessionInit ops = some (s, replies) →
    (id, m) ∈ s.files → s.state.view s.state.currentDevNo = some t →
    ∀ bkt, ∀ o ∈ t bkt, (t bkt).length ≤ 8 → ∀ objectArray, Dumps s id m (t bkt) o objectArray

/-- The key 131 is the first one of bucket 123, and greater than 128. -/
theorem not_entriesDumped : ¬ EntriesDumped := by
  intro h
  obtain ⟨s, replies, t, hrun, hfile, ht, hcur, hchain⟩ :
      ∃ s replies t, run (sessionOp hashMin7) sessionInit
        [(0, 0, .openFile), (0, 0, .writeFile ⟨131, 5⟩)] = some (s, replies) ∧
      (0, 0) ∈ s.files ∧ s.state.view 0 = some t ∧ s.state.currentDevNo = 0 ∧
      t 123 = [⟨131, 5⟩] :=
    ⟨_, _, _, rfl, by decide, rfl, rfl, rfl⟩
  have ht' : s.state.view s.state.currentDevNo = some t := by rw [hcur, ht]
  obtain ⟨s₁, arg, hop, -⟩ := h _ s replies 0 0 t hrun hfile ht' 123 ⟨131, 5⟩ (by simp [hchain])
    (by simp [hchain]) fun _ => ⟨0, 0⟩
  obtain ⟨s₂, hop'⟩ := session_dump hfile ht' ⟨Int32.ofNat (123 : Fin 128), fun _ => ⟨0, 0⟩⟩
  rw [dumpReply, if_pos ((findNbkt_bucket 123).2 (by decide))] at hop'
  have hbucket : hashMin7 131 = 123 := rfl
  rw [hbucket, hop'] at hop
  simp [EINVAL] at hop

end KernelDrivers.HashTable
