import KernelDrivers.HashTable.Table

/-!
# A hash table file is a finite map

Between two opens a file of the driver behaves as a finite map from keys to nonzero data.
The delete loop removes only the first node of a key and the read loop answers the last one,
so both rest on `TableInv`: no key occurs twice.
-/

namespace KernelDrivers.HashTable
open Lib

variable (hashMin : Int32 → Fin 128)

/-- Every object sits in the bucket of its key, no key occurs twice and no data is zero. -/
structure TableInv (t : ObjectTable) : Prop where
  inBucket : ∀ bkt, ∀ o ∈ t bkt, hashMin o.key = bkt
  distinct : ∀ bkt, DistinctKeys HtObject.key (t bkt)
  nonzero : ∀ bkt, ∀ o ∈ t bkt, o.data ≠ 0

/-- The map a table stands for. -/
def contents (t : ObjectTable) (k : Int32) : Option Int32 :=
  (lookup HtObject.key k (t (hashMin k))).map (·.data)

variable {hashMin}

theorem tableInv_empty : TableInv hashMin fun _ => [] where
  inBucket _ _ h := by simp at h
  distinct _ := distinctKeys_nil
  nonzero _ _ h := by simp at h

/-! ## Writing -/

/-- `writeChain` changes the data of an object in place. -/
private theorem key_setData (d : Int32) (o : HtObject) : ({ o with data := d } : HtObject).key =
    o.key := rfl

theorem mem_writeChain {obj o : HtObject} {xs : List HtObject} (h : o ∈ writeChain obj xs) :
    o ∈ xs ∨ o.key = obj.key ∧ o.data = obj.data ∧ obj.data ≠ 0 := by
  unfold writeChain at h
  split_ifs at h with hdata hany
  · exact Or.inl (List.mem_of_mem_eraseP h)
  · obtain ⟨o', ho', rfl⟩ := List.mem_map.mp h
    by_cases hk : o'.key = obj.key
    · simp [hk, hdata]
    · simp [hk, ho']
  · rcases List.mem_cons.mp h with rfl | h
    · exact Or.inr ⟨rfl, rfl, hdata⟩
    · exact Or.inl h

theorem distinct_writeChain (obj : HtObject) {xs : List HtObject}
    (h : DistinctKeys HtObject.key xs) : DistinctKeys HtObject.key (writeChain obj xs) := by
  unfold writeChain
  split_ifs with hdata hany
  · exact h.eraseP _
  · exact h.modify (key_setData obj.data) obj.key
  · have hfresh : lookup HtObject.key obj.key xs = none := by
      simpa [lookup] using hany
    exact distinctKeys_cons.mpr ⟨hfresh, h⟩

/-- The looked up data after a write to the chain. The delete branch needs the keys distinct:
it removes one object. -/
theorem lookup_writeChain (obj : HtObject) {xs : List HtObject}
    (h : DistinctKeys HtObject.key xs) (k : Int32) :
    (lookup HtObject.key k (writeChain obj xs)).map (·.data) =
      if k = obj.key then (if obj.data = 0 then none else some obj.data)
      else (lookup HtObject.key k xs).map (·.data) := by
  unfold writeChain
  by_cases hdata : obj.data = 0
  · rw [if_pos hdata, if_pos hdata, lookup_eraseP h]
    split_ifs <;> rfl
  rw [if_neg hdata, if_neg hdata]
  by_cases hany : xs.any fun o => o.key = obj.key
  · obtain ⟨o, ho⟩ : ∃ o, lookup HtObject.key obj.key xs = some o := by
      rw [← Option.isSome_iff_exists]
      simpa [lookup, List.find?_isSome] using hany
    rw [if_pos hany, lookup_modify (key_setData obj.data)]
    split_ifs <;> simp [ho]
  · rw [if_neg hany, lookup_cons]
    by_cases hk : k = obj.key
    · simp [hk]
    · simp [hk, Ne.symm hk]

/-- A write keeps the invariant. -/
theorem TableInv.write {t : ObjectTable} (h : TableInv hashMin t) (obj : HtObject) :
    TableInv hashMin (callStep hashMin t (.writeFile obj)).1 := by
  have hcase : ∀ bkt, Function.update t (hashMin obj.key)
      (writeChain obj (t (hashMin obj.key))) bkt =
        if bkt = hashMin obj.key then writeChain obj (t (hashMin obj.key)) else t bkt := by
    intro bkt
    simp [Function.update_apply]
  constructor
  · intro bkt o ho
    simp only [callStep, hcase] at ho
    split_ifs at ho with hb
    · rcases mem_writeChain ho with ho | ⟨hk, -, -⟩
      · exact hb ▸ h.inBucket _ o ho
      · rw [hk, hb]
    · exact h.inBucket bkt o ho
  · intro bkt
    simp only [callStep, hcase]
    split_ifs
    · exact distinct_writeChain obj (h.distinct _)
    · exact h.distinct bkt
  · intro bkt o ho
    simp only [callStep, hcase] at ho
    split_ifs at ho with hb
    · rcases mem_writeChain ho with ho | ⟨-, hd, hz⟩
      · exact h.nonzero _ o ho
      · rwa [hd]
    · exact h.nonzero bkt o ho

/-- A write updates the map at its key. -/
theorem contents_write {t : ObjectTable} (h : TableInv hashMin t) (obj : HtObject) :
    contents hashMin (callStep hashMin t (.writeFile obj)).1 =
      Function.update (contents hashMin t) obj.key
        (if obj.data = 0 then none else some obj.data) := by
  funext k
  simp only [contents, callStep, Function.update_apply]
  by_cases hb : hashMin k = hashMin obj.key
  · rw [if_pos hb, lookup_writeChain obj (h.distinct _), hb]
  · have hk : k ≠ obj.key := fun hk => hb (congrArg hashMin hk)
    rw [if_neg hb, if_neg hk]

/-! ## Reading -/

/-- The read loop runs to the end of the chain and keeps the last match; with distinct keys
that is the only one. -/
theorem foldl_readObject {xs : List HtObject} (h : DistinctKeys HtObject.key xs)
    (v : HtObject × Bool) :
    xs.foldl readObject v = (lookup HtObject.key v.1.key xs).elim v
      fun o => ({ v.1 with data := o.data }, true) := by
  induction xs generalizing v with
  | nil => rfl
  | cons o xs ih =>
    obtain ⟨hfresh, htail⟩ := distinctKeys_cons.mp h
    rw [List.foldl_cons, ih htail, lookup_cons]
    by_cases hk : o.key = v.1.key
    · have hv : (readObject v o).1.key = o.key := by simp [readObject, hk]
      rw [hv, hfresh]
      simp [readObject, hk]
    · simp [readObject, hk]

/-- What the user's buffer holds after a read, and the value returned. -/
def answer (stored : Option Int32) (buf : HtObject) : Int32 × HtObject :=
  match stored with
  | some d => (1, { buf with data := d })
  | none => (-EINVAL, { buf with data := -1 })

theorem readChain_eq {t : ObjectTable} (h : TableInv hashMin t) (buf : HtObject) :
    readChain buf (t (hashMin buf.key)) = answer (contents hashMin t buf.key) buf := by
  unfold readChain contents
  rw [foldl_readObject (h.distinct _)]
  cases lookup HtObject.key buf.key (t (hashMin buf.key)) <;> simp [answer]

/-! ## Runs of writes and reads -/

/-- A call of the map interface, with the object the user's buffer holds. -/
inductive MapCall where
  | write (obj : HtObject)
  | read (buf : HtObject)

def MapCall.call : MapCall → Call
  | .write obj => .writeFile obj
  | .read buf => .readFile buf

/-- A call through a file opened on the minor `m`. -/
def mapOp (hashMin : Int32 → Fin 128) (m : Minor) (s : HtState) (c : MapCall) :
    Option (HtState × Reply) :=
  fileOp hashMin s (m, c.call)

/-- The writes seen so far: at each key the data of the last one. -/
def recordWrite (last : Int32 → Option Int32) : MapCall → Int32 → Option Int32
  | .write obj => Function.update last obj.key (some obj.data)
  | .read _ => last

/-- The data the last write of a key in `calls` carried. -/
def lastWrite (calls : List MapCall) : Int32 → Option Int32 :=
  calls.foldl recordWrite fun _ => none

/-- A write of zero stores nothing. -/
def stored (last : Option Int32) : Option Int32 :=
  match last with
  | some d => if d = 0 then none else some d
  | none => none

/-- The driver's state stands for the writes made since the open. -/
def Represents (hashMin : Int32 → Fin 128) (s : HtState) (last : Int32 → Option Int32) : Prop :=
  ∃ t, s.view s.currentDevNo = some t ∧ TableInv hashMin t ∧
    ∀ k, contents hashMin t k = stored (last k)

theorem represents_open (m : Minor) (s : HtState) :
    Represents hashMin (ht530DrvDriverOpen m s) fun _ => none :=
  ⟨_, by rw [open_view, open_currentDevNo, Function.update_self], tableInv_empty, fun _ => rfl⟩

/-- One call through the file keeps the representation. -/
theorem Represents.step {s : HtState} {last : Int32 → Option Int32}
    (h : Represents hashMin s last) (m : Minor) (c : MapCall) :
    ∃ s' reply, mapOp hashMin m s c = some (s', reply) ∧
      Represents hashMin s' (recordWrite last c) := by
  obtain ⟨t, hview, hinv, hcontents⟩ := h
  have hc : c.call ≠ .openFile := by cases c <;> simp [MapCall.call]
  obtain ⟨s', hop, hcur, hview'⟩ := fileOp_refines hview m hc
  refine ⟨s', _, hop, _, by rw [hcur, hview', Function.update_self], ?_⟩
  cases c with
  | write obj =>
    refine ⟨hinv.write obj, fun k => ?_⟩
    rw [show MapCall.call (.write obj) = .writeFile obj from rfl, contents_write hinv]
    by_cases hk : k = obj.key
    · simp [hk, recordWrite, stored]
    · simp [hk, recordWrite, hcontents]
  | read buf => exact ⟨hinv, hcontents⟩

/-- A read answers from the representation and leaves the state as it was. -/
theorem Represents.read {s : HtState} {last : Int32 → Option Int32}
    (h : Represents hashMin s last) (buf : HtObject) :
    ht530DrvDriverRead hashMin buf s = some (s, answer (stored (last buf.key)) buf) := by
  obtain ⟨t, hview, hinv, hcontents⟩ := h
  obtain ⟨tbl, htbl, rfl⟩ := Option.map_eq_some_iff.mp hview
  simp [ht530DrvDriverRead, htbl, readTable_eq, readChain_eq hinv, hcontents]

/-- The state a file reaches by writes and reads stands for the writes made through it. -/
theorem represents_run (hashMin : Int32 → Fin 128) (s₀ : HtState) (m : Minor)
    (calls : List MapCall) :
    ∃ s replies, run (mapOp hashMin m) (ht530DrvDriverOpen m s₀) calls = some (s, replies) ∧
      Represents hashMin s (lastWrite calls) :=
  run_simulation _ (fun _ _ c h => h.step m c) (represents_open m s₀) calls

/-- A file opened on either minor is a finite map. At any point of any sequence of writes and
reads, a read answers 1 and the data of the last write of its key, when that is not zero, and
`-EINVAL` and `-1` otherwise. It changes nothing. -/
theorem read_answers_last_write (hashMin : Int32 → Fin 128) (s₀ : HtState) (m : Minor)
    (before after : List MapCall) (buf : HtObject) :
    ∃ s replies t replies',
      run (mapOp hashMin m) (ht530DrvDriverOpen m s₀) before = some (s, replies) ∧
      run (mapOp hashMin m) (ht530DrvDriverOpen m s₀) (before ++ .read buf :: after) =
        some (t, replies ++
          .object (answer (stored (lastWrite before buf.key)) buf).1
            (answer (stored (lastWrite before buf.key)) buf).2 :: replies') ∧
      ht530DrvDriverRead hashMin buf s =
        some (s, answer (stored (lastWrite before buf.key)) buf) := by
  obtain ⟨s, replies, hrun, hrep⟩ := represents_run hashMin s₀ m before
  have hread := hrep.read buf
  have hop : mapOp hashMin m s (.read buf) =
      some (s, .object (answer (stored (lastWrite before buf.key)) buf).1
        (answer (stored (lastWrite before buf.key)) buf).2) := by
    simp [mapOp, fileOp, MapCall.call, hread]
  obtain ⟨t, replies', hafter, -⟩ :=
    run_simulation (R := Represents hashMin) (mapOp hashMin m) (fun _ _ c h => h.step m c)
      hrep after
  refine ⟨s, replies, t, replies', hrun, ?_, hread⟩
  rw [run_append_of_some _ hrun, run_cons_of_some _ hop, hafter]
  rfl

end KernelDrivers.HashTable
