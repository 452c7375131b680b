import KernelDrivers.HashTable.Dump
import KernelDrivers.Lib.Loop

/-!
# What a dump replies

`DUMP` counts the objects it copies and tells nobody: the field `n` keeps the number of the bucket
asked for, and the test program takes it for the number of objects. So a reply describes itself
only where the two numbers happen to be equal.
-/

namespace KernelDrivers.HashTable
open Lib

/-- `lcount` after the loop: the number of objects copied. -/
def lcount (objectArray : Fin 8 → HtObject) (chain : List HtObject) : Nat :=
  (walk dumpObject (0, objectArray) chain).1.1

/-- The loop of the test program over a reply. Behind the eight objects there is nothing to
print. -/
def printedEntries (darg : DumpArg) : Option (List HtObject) :=
  forRange (fun i entries => (CArray.load darg.objectArray i).map fun o => entries ++ [o]) 0
    darg.n.toInt.toNat []

/-- The field `n` of a reply is the number of objects copied, and the entries the program prints
are the first eight of the bucket, or all if it has fewer. -/
structure DescribesItself (objectArray : Fin 8 → HtObject) (chain : List HtObject)
    (reply : DumpArg) : Prop where
  count : reply.n.toInt = (lcount objectArray chain : Nat)
  entries : printedEntries reply = some (chain.take 8)

theorem lcount_eq (objectArray : Fin 8 → HtObject) (chain : List HtObject) :
    lcount objectArray chain = min 8 chain.length := by
  rw [lcount, (walk_dumpObject (Nat.zero_le 8) objectArray).1, Nat.zero_add]

/-- The program prints the entries copied when it is told their number. -/
theorem printedEntries_eq {chain : List HtObject} {objectArray : Fin 8 → HtObject} {n : Int32}
    (hn : n.toInt.toNat = min 8 chain.length) :
    printedEntries ⟨n, (walk dumpObject (0, objectArray) chain).1.2⟩ = some (chain.take 8) := by
  obtain ⟨-, -, hcopied⟩ := @walk_dumpObject chain 0 (Nat.zero_le 8) objectArray
  let objects := (walk dumpObject (0, objectArray) chain).1.2
  have hbody : ∀ i entries, 0 ≤ i → i < 0 + n.toInt.toNat → entries = chain.take i →
      ∃ entries', ((CArray.load objects i).map fun o => entries ++ [o]) = some entries' ∧
        entries' = chain.take (i + 1) := by
    rintro i entries - hi rfl
    have hlt : i < chain.length := by omega
    have hload : CArray.load objects i = some (objects ⟨i, by omega⟩) :=
      CArray.load_fin objects ⟨i, by omega⟩
    have hobject : objects ⟨i, by omega⟩ = chain[i] := by
      simpa [objects] using hcopied i (by omega) hlt
    rw [hload, hobject]
    exact ⟨_, rfl, List.take_append_getElem hlt⟩
  obtain ⟨entries, hloop, rfl⟩ := forRange_invariant
    (fun i (entries : List HtObject) => entries = chain.take i) hbody rfl
  have htake : chain.take (0 + n.toInt.toNat) = chain.take 8 := by
    rw [Nat.zero_add, hn, ← List.take_eq_take_min]
  exact hloop.trans (congrArg some htake)

/-- The reply of a dump of a bucket that is accepted. -/
theorem dumpReply_bucket {bkt : Fin 128} (hbkt : bkt ∉ refusedBuckets)
    (objectArray : Fin 8 → HtObject) (t : ObjectTable) :
    dumpReply hashMin7 ⟨Int32.ofNat bkt, objectArray⟩ t =
      (0, ⟨Int32.ofNat bkt, (walk dumpObject (0, objectArray) (t bkt)).1.2⟩) := by
  obtain ⟨hle, hkey⟩ := (findNbkt_bucket bkt).1 hbkt
  rw [dumpReply, if_neg (Nat.not_lt.mpr hle), hkey]

/-- A dump that succeeds was asked for a bucket. -/
theorem dumpReply_success {arg reply : DumpArg} {t : ObjectTable}
    (h : dumpReply hashMin7 arg t = (0, reply)) :
    ∃ bkt : Fin 128, arg.n = Int32.ofNat bkt ∧
      reply = ⟨arg.n, (walk dumpObject (0, arg.objectArray) (t bkt)).1.2⟩ := by
  by_cases hbucket : 0 ≤ arg.n.toInt ∧ arg.n.toInt ≤ 127
  · obtain ⟨bkt, hbkt⟩ : ∃ bkt : Fin 128, arg.n.toInt = (bkt : Nat) :=
      CArray.exists_fin ⟨hbucket.1, by omega⟩
    have hn : arg.n = Int32.ofNat bkt := by
      apply Int32.toInt_inj.mp
      rw [hbkt, Int32.toInt_ofNat_of_lt (by omega)]
    have harg : arg = ⟨Int32.ofNat bkt, arg.objectArray⟩ := by rw [← hn]
    by_cases hrefused : bkt ∈ refusedBuckets
    · rw [harg, dumpReply, if_pos ((findNbkt_bucket bkt).2 hrefused)] at h
      exact absurd (Prod.mk.inj h).1 (by decide)
    · rw [harg, dumpReply_bucket hrefused] at h
      exact ⟨bkt, hn, hn ▸ (Prod.mk.inj h).2.symm⟩
  · rw [dumpReply, if_pos (findNbkt_outside hbucket)] at h
    exact absurd (Prod.mk.inj h).1 (by decide)

/-- A reply describes itself exactly when the bucket's number is the number of objects copied. -/
theorem describesItself_iff {arg : DumpArg} {chain : List HtObject} :
    DescribesItself arg.objectArray chain
        ⟨arg.n, (walk dumpObject (0, arg.objectArray) chain).1.2⟩ ↔
      arg.n.toInt = (min 8 chain.length : Nat) := by
  constructor
  · intro h
    rw [← lcount_eq arg.objectArray chain]
    exact h.count
  · intro hn
    refine ⟨?_, printedEntries_eq (by omega)⟩
    rw [lcount_eq]
    exact hn

/-- In every state reached, the reply of a dump that succeeds describes itself exactly when the
number of the bucket is the number of its objects, or 8 when it has more. -/
theorem dump_describes_iff {ops : List SessionOp} {s : Session} {replies : List Reply}
    (hrun : run (sessionOp hashMin7) sessionInit ops = some (s, replies))
    {id : Nat} {m : Minor} {arg reply : DumpArg} {s' : Session}
    (hdump : sessionOp hashMin7 s (id, m, .dump arg) = some (s', .dumped 0 reply)) :
    ∃ t, s.state.view s.state.currentDevNo = some t ∧ ∃ bkt : Fin 128, arg.n = Int32.ofNat bkt ∧
      (DescribesItself arg.objectArray (t bkt) reply ↔
        arg.n.toInt = (min 8 (t bkt).length : Nat)) := by
  obtain ⟨hallows, -⟩ := sessionOp_eq_some.mp hdump
  have hfile : (id, m) ∈ s.files := hallows
  obtain ⟨t, ht⟩ := (wellFormed_run hrun).finds hallows nofun
  obtain ⟨s₁, hop⟩ := session_dump hfile ht arg
  obtain ⟨-, hreply⟩ := Prod.mk.inj (Option.some.inj (hdump.symm.trans hop))
  obtain ⟨hret, harg⟩ := Reply.dumped.inj hreply
  obtain ⟨bkt, hn, rfl⟩ := dumpReply_success (Prod.ext hret.symm harg.symm)
  exact ⟨t, ht, bkt, hn, describesItself_iff⟩

/-- Bucket 1 with one object: the key 34. -/
theorem dump_describes_iff_bucket_one :
    ∃ s replies s' reply, run (sessionOp hashMin7) sessionInit
        [(0, 0, .openFile), (0, 0, .writeFile ⟨34, 5⟩)] = some (s, replies) ∧
      sessionOp hashMin7 s (0, 0, .dump ⟨1, fun _ => ⟨0, 0⟩⟩) = some (s', .dumped 0 reply) ∧
      ∃ t bkt, s.state.view s.state.currentDevNo = some t ∧
        DescribesItself (fun _ => ⟨0, 0⟩) (t bkt) reply := by
  obtain ⟨s, replies, t, hrun, hfile, ht, hchain⟩ : ∃ s replies t,
      run (sessionOp hashMin7) sessionInit
        [(0, 0, .openFile), (0, 0, .writeFile ⟨34, 5⟩)] = some (s, replies) ∧
      (0, 0) ∈ s.files ∧ s.state.view s.state.currentDevNo = some t ∧ t 1 = [⟨34, 5⟩] :=
    ⟨_, _, _, rfl, by decide, rfl, rfl⟩
  obtain ⟨s', hop⟩ := session_dump hfile ht ⟨1, fun _ => ⟨0, 0⟩⟩
  have hreply := @dumpReply_bucket 1 (by decide) (fun _ => ⟨0, 0⟩) t
  rw [show (1 : Int32) = Int32.ofNat (1 : Fin 128) from rfl, hreply] at hop
  obtain ⟨t', ht', bkt, hn, hiff⟩ := dump_describes_iff hrun hop
  obtain rfl := Option.some.inj (ht.symm.trans ht')
  obtain rfl : (1 : Fin 128) = bkt := ofNat_bucket_inj hn
  refine ⟨s, replies, s', _, hrun, hop, t, 1, ht, hiff.mpr ?_⟩
  rw [hchain]
  decide

/-- Every reply of a dump that succeeds describes itself, in every state reached. -/
def RepliesDescribe : Prop :=
  ∀ (ops : List SessionOp) (s s' : Session) (replies : List Reply) (id : Nat) (m : Minor)
    (arg reply : DumpArg) (t : ObjectTable) (bkt : Fin 128),
    run (sessionOp hashMin7) sessionInit ops = some (s, replies) →
    sessionOp hashMin7 s (id, m, .dump arg) = some (s', .dumped 0 reply) →
    s.state.view s.state.currentDevNo = some t → arg.n = Int32.ofNat bkt →
    DescribesItself arg.objectArray (t bkt) reply

/-- Bucket 79 with the one object of key 1: the program is told to print 79 of them. -/
theorem not_repliesDescribe : ¬ RepliesDescribe := by
  intro h
  obtain ⟨s, replies, t, hrun, hfile, ht, hchain⟩ : ∃ s replies t,
      run (sessionOp hashMin7) sessionInit
        [(0, 0, .openFile), (0, 0, .writeFile ⟨1, 5⟩)] = some (s, replies) ∧
      (0, 0) ∈ s.files ∧ s.state.view s.state.currentDevNo = some t ∧ t 79 = [⟨1, 5⟩] :=
    ⟨_, _, _, rfl, by decide, rfl, rfl⟩
  obtain ⟨s', hop⟩ := session_dump hfile ht ⟨79, fun _ => ⟨0, 0⟩⟩
  have hreply := @dumpReply_bucket 79 (by decide) (fun _ => ⟨0, 0⟩) t
  rw [show (79 : Int32) = Int32.ofNat (79 : Fin 128) from rfl, hreply] at hop
  have hdescribes := h _ s s' replies 0 0 _ _ t 79 hrun hop ht rfl
  rw [describesItself_iff, hchain] at hdescribes
  exact absurd hdescribes (by decide)

/-! ## The lines of the test program -/

/-- `darg->n = 8`, before each of the 128 dumps of a table. -/
def lineRequest (darg : DumpArg) : DumpArg := { darg with n := 8 }

/-- Every line the program prints is about bucket 8, and right when this bucket has at least eight
objects. -/
theorem line_describes_iff {s : Session} {id : Nat} {m : Minor} (hfile : (id, m) ∈ s.files)
    {t : ObjectTable} (ht : s.state.view s.state.currentDevNo = some t) (darg : DumpArg) :
    ∃ s' reply, sessionOp hashMin7 s (id, m, .dump (lineRequest darg)) =
        some (s', .dumped 0 reply) ∧
      (DescribesItself darg.objectArray (t 8) reply ↔ 8 ≤ (t 8).length) := by
  obtain ⟨s', hop⟩ := session_dump hfile ht (lineRequest darg)
  have hreply := @dumpReply_bucket 8 (by decide) darg.objectArray t
  change dumpReply hashMin7 (lineRequest darg) t = _ at hreply
  rw [hreply] at hop
  refine ⟨s', _, hop, (@describesItself_iff (lineRequest darg) (t 8)).trans ?_⟩
  have height : (lineRequest darg).n.toInt = 8 := rfl
  rw [height]
  omega

end KernelDrivers.HashTable
