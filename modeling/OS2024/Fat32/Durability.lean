import OS2024.Fat32.Remount
import OS2024.Fat32.Service

/-!
# Runs of the file system

Clients call the file system in any order, and it is mounted again any number of times.  From
outside such a run is a run of the cabinet, in which mounting does not show.

**Results.**
* `safeRun_serves`: the replies of a run are those of the cabinet.
* `written_file_persists`: what a `write` has stored is read back at any time until a `delete`
  asks for it, whatever other calls and mounts there are.
-/

namespace OS2024
namespace Fat32

open TracedState Runs Cabinet

/-- Calls are safe, and mounts are always possible. -/
def Admissible (s : FileSystem) : Event → Prop
  | .call c => Safe s c
  | .mount _ => True

/-- What the clients see of a run. -/
def runReplies : FileSystem → List Event → List (Except Fault Reply)
  | _, [] => []
  | s, .call c :: es => (c.run s).result :: runReplies (after s c) es
  | s, .mount cache :: es => runReplies (remount s cache).state es

/-- The runs of the cabinet. -/
inductive ServesRun : Cabinet UInt32 Key File → List Event → List (Except Fault Reply) →
    Cabinet UInt32 Key File → Prop
  | nil (c : Cabinet UInt32 Key File) : ServesRun c [] [] c
  | call {c c' c'' : Cabinet UInt32 Key File} {call : Call} {reply : Except Fault Reply}
      {es : List Event} {replies : List (Except Fault Reply)} (serves : Serves c call reply c')
      (rest : ServesRun c' es replies c'') :
      ServesRun c (.call call :: es) (reply :: replies) c''
  | mount {c c' : Cabinet UInt32 Key File} {cache : FAT32FileAllocationTable}
      {es : List Event} {replies : List (Except Fault Reply)}
      (rest : ServesRun c es replies c') : ServesRun c (.mount cache :: es) replies c'

/-- The key of the records of the root. -/
def rootKey : Key := (rootName, fun _ => 0)

/-- A root without items, and 509 free clusters. -/
def newCabinet : Cabinet UInt32 Key File where
  drawer d :=
    if d = rootClusterNumber then some ⟨rootKey, rootKey, childSlots, fun _ => none⟩ else none
  free := 509

theorem freeEntries_created :
    (Finset.univ.filter fun i : Fin 512 => createdFatTable i = fat32FatEmptyEntry).card = 509 := by
  decide +kernel

section Steps

variable {s : FileSystem}

theorem Created.cabinet
    (h : Created s) :
    s.cabinet = newCabinet := by
  have hdead : ∀ i : Fin 64, ¬ (s.table rootClusterNumber i).Live ↔ 2 ≤ i := by
    rw [h.root]
    decide
  have hroot : s.drawer rootClusterNumber = ⟨rootKey, rootKey, childSlots, fun _ => none⟩ := by
    ext1
    · show (s.table rootClusterNumber 0).key = _
      rw [h.root]
      decide
    · show (s.table rootClusterNumber 1).key = _
      rw [h.root]
      decide
    · show (Finset.univ.filter fun i => ¬ (s.table rootClusterNumber i).Live).card = 62
      rw [Finset.filter_congr fun i _ => hdead i]
      rfl
    · funext key
      exact look_eq_none_iff.mpr fun i hi hm => (hdead i).mpr hi hm.1
  ext1
  · funext d
    by_cases hd : d = rootClusterNumber
    · rw [hd, cabinet_drawer (liveDir_root s), hroot]
      rfl
    · rw [cabinet_no_drawer fun hl => hd ((h.liveDir_iff d).mp hl)]
      exact (if_neg hd).symm
  · rw [cabinet_free, FileSystem.freeEntries, h.fatTable]
    exact freeEntries_created

theorem afterEvent_admissible
    (hs : Sound s ∧ Recorded s)
    (e : Event)
    (he : Admissible s e) :
    Sound (afterEvent s e) ∧ Recorded (afterEvent s e) := by
  cases e with
  | call c =>
      have hedit := after_edited hs.1 he
      exact ⟨hedit.sound hs.1, hedit.recorded hs.1 hs.2⟩
  | mount cache =>
      rw [afterEvent, remount, initialize_of_sound hs.1]
      exact hs

end Steps

/-- A run of calls, as a run of events. -/
theorem along_calls
    {s : FileSystem}
    {cs : List Call}
    (hcs : Along Safe after s cs) :
    Along Admissible afterEvent s (cs.map Event.call) := by
  induction cs generalizing s with
  | nil => trivial
  | cons c cs ih => exact ⟨hcs.1, ih hcs.2⟩

theorem foldl_calls
    (s : FileSystem)
    (cs : List Call) :
    (cs.map Event.call).foldl afterEvent s = cs.foldl after s := by
  rw [List.foldl_map]
  rfl

/-- **A run from a sound file system is a run of its cabinet, with the same replies.** -/
theorem run_serves
    {s : FileSystem}
    (hs : Sound s ∧ Recorded s)
    {es : List Event}
    (hes : Along Admissible afterEvent s es) :
    ServesRun s.cabinet es (runReplies s es) (es.foldl afterEvent s).cabinet := by
  induction es generalizing s with
  | nil => exact ServesRun.nil _
  | cons e es ih =>
      have hnext := afterEvent_admissible hs e hes.1
      have hrest := ih hnext hes.2
      cases e with
      | call c => exact ServesRun.call (safe_serves hs.1 hs.2 hes.1) hrest
      | mount cache =>
          have hsame : afterEvent s (.mount cache) = s := by
            rw [afterEvent, remount, initialize_of_sound hs.1]
          rw [hsame] at hrest
          have hreplies : runReplies s (.mount cache :: es) = runReplies s es := by
            rw [runReplies, remount, initialize_of_sound hs.1]
          rw [hreplies, List.foldl_cons, hsame]
          exact ServesRun.mount hrest

/-- **The runs of a new file system are runs of the cabinet, with the same replies.** -/
theorem safeRun_serves
    {s : FileSystem}
    (hnew : NewSystem s)
    {es : List Event}
    (hes : Along Admissible afterEvent s es) :
    ServesRun newCabinet es (runReplies s es) (es.foldl afterEvent s).cabinet := by
  rw [← hnew.created.cabinet]
  exact run_serves ⟨hnew.created.sound, hnew.created.recorded⟩ hes

/-- A folder is made in the root, and the driver is mounted again. -/
def smallRun : List Event :=
  [.call (.write (requestFor ['b'] 2 0)), .mount fun _ => 0]

theorem smallRun_admissible (s : FileSystem) : Along Admissible afterEvent s smallRun :=
  ⟨⟨liveDir_root s, nofun⟩, trivial, trivial⟩

theorem safeRun_serves_smallRun :
    ServesRun newCabinet smallRun (runReplies emptySystem smallRun)
      (smallRun.foldl afterEvent emptySystem).cabinet :=
  safeRun_serves newSystem_emptySystem (smallRun_admissible _)

/-! ## What stays -/

section Persistence

variable {c c' : Cabinet UInt32 Key File} {d : UInt32} {k : Key} {item : Item UInt32 File}

/-- An item stays in its place if the call is no `delete` of it. -/
theorem Serves.keeps
    {call : Call}
    {reply : Except Fault Reply}
    (h : Serves c call reply c')
    (hlook : c.look d k = some item)
    (hother : ∀ r, call = .delete r → ¬ (r.parentClusterNumber = d ∧ r.key = k)) :
    c'.look d k = some item := by
  obtain ⟨w, e, -, hanswer, rfl⟩ := h
  cases hanswer with
  | write unused x admits =>
      refine admits.keeps hlook ?_
      rw [FAT32DriverRequest.edit]
      split_ifs
      · intro h
        cases h
      · intro h
        cases h
  | @delete r unlabelled admits =>
      have hne : Edit.take r.parentClusterNumber r.key ≠ (.take d k : Edit UInt32 Key File) := by
        rw [ne_eq, Edit.take.injEq]
        exact hother r rfl
      show (edited c (.take r.parentClusterNumber r.key)).look d k = some item
      exact admits.keeps hlook hne
  | _ => exact hlook

theorem ServesRun.keeps
    {es : List Event}
    {replies : List (Except Fault Reply)}
    (h : ServesRun c es replies c')
    (hlook : c.look d k = some item)
    (hother : ∀ r, Event.call (.delete r) ∈ es → ¬ (r.parentClusterNumber = d ∧ r.key = k)) :
    c'.look d k = some item := by
  induction h with
  | nil _ => exact hlook
  | call serves _ ih =>
      refine ih (serves.keeps hlook ?_) fun r hr => hother r (List.mem_cons_of_mem _ hr)
      rintro r rfl
      exact hother r (List.mem_cons_self ..)
  | mount _ ih => exact ih hlook fun r hr => hother r (List.mem_cons_of_mem _ hr)

end Persistence

section Files

variable {s : FileSystem} {r r' : FAT32DriverRequest}

/-- What `write` has stored is found in the cabinet. -/
theorem look_written
    (hs : Sound s)
    (hp : LiveDir s r.parentClusterNumber)
    (hfile : ¬ isFolder r = true)
    (hw : (write r s).result = .ok 0) :
    (write r s).state.cabinet.look r.parentClusterNumber r.key =
      some (.paper ⟨r.bufferSize, chunks r.buf 0 (required r).toNat⟩) := by
  obtain ⟨k, c, rest, hbuf, hfree, hins⟩ := write_inserted hs hp hw
  have hlen := length_slotBuf_eq hbuf hfree
  have hitem := hins.item_new hlen
  rw [if_neg hfile] at hitem
  rw [hins.cabinet hs hlen, edited, FAT32DriverRequest.edit, if_neg hfile, apply, look_withFree,
    look_put, if_pos ⟨rfl, rfl, by rw [cabinet_drawer hp]; rfl⟩]

/-- A file in the cabinet is read from there. -/
theorem read_of_look
    (hs : Sound s)
    {f : File}
    (hlook : s.cabinet.look r.parentClusterNumber r.key = some (.paper f))
    (hsize : f.filesize.toNat ≤ 255 * 2048)
    (hlarge : 2048 * clusterCount f.filesize ≤ r.bufferSize.toNat) :
    (read r s).result = .ok (0, deliveriesFrom 0 f.blocks) := by
  have hp : LiveDir s r.parentClusterNumber := by
    by_contra hno
    rw [look_of_no_drawer (cabinet_no_drawer hno)] at hlook
    cases hlook
  have ht := hs.table _ hp
  rw [look_of_drawer (cabinet_drawer hp)] at hlook
  obtain ⟨i, hi, ⟨hl, hkey⟩, -⟩ := (look_eq_some_iff ht).mp hlook
  have hlabel := not_labelled_child ht hi hl
  have hfits : ¬ r.bufferSize / clusterSize <
      (ceil (floatClusters f.filesize)).toUInt32 := by
    have hcount := clusterCount_le hsize
    have hmod : clusterCount f.filesize % 2 ^ 8 = clusterCount f.filesize :=
      Nat.mod_eq_of_lt (Nat.lt_succ_of_le hcount)
    have hdiv : r.bufferSize.toNat / clusterSize.toNat = r.bufferSize.toNat / 2048 := rfl
    rw [ceil_floatClusters (by omega), UInt32.lt_iff_toNat_lt, UInt32.toNat_div,
      UInt8.toNat_toUInt32, UInt8.toNat_ofNat', hmod, hdiv]
    omega
  rw [hkey] at hlabel
  rw [read_reply hs hp, readReply, if_neg hlabel, hlook]
  exact if_neg hfits

end Files

section Stored

variable {s : FileSystem} {r r' : FAT32DriverRequest} {es : List Event}

/-- The clusters of the data are found in every later state. -/
theorem read_written
    (h : Reached NewSystem Safe after s)
    (hp : LiveDir s r.parentClusterNumber)
    (hpos : 0 < r.bufferSize.toNat)
    (hsmall : r.bufferSize.toNat ≤ 255 * 2048)
    (hw : (write r s).result = .ok 0)
    (hes : Along Admissible afterEvent (write r s).state es)
    (hkept : ∀ x, Event.call (.delete x) ∈ es → ¬ SameEntry r x)
    (hsame : SameEntry r r')
    (hlarge : 2048 * clusterCount r.bufferSize ≤ r'.bufferSize.toNat) :
    (read r' (es.foldl afterEvent (write r s).state)).result =
      .ok (0, deliveriesFrom 0 (chunks r.buf 0 (clusterCount r.bufferSize))) := by
  have hs := safeRun_sound h
  have hsafe : Safe s (Call.write r) := ⟨hp, fun _ hr => by cases hr⟩
  have hwritten : Reached NewSystem Safe after (write r s).state := by
    rw [← after_write]
    exact h.step hsafe
  have hs₁ : Sound (write r s).state ∧ Recorded (write r s).state :=
    ⟨safeRun_sound hwritten, safeRun_recorded hwritten⟩
  have hfile := not_isFolder hpos
  -- the file is in the cabinet after the `write`, and stays there
  have hlook := (run_serves hs₁ hes).keeps (look_written hs hp hfile hw)
    fun x hx he => hkept x hx ⟨he.1, he.2⟩
  have hend : Sound (es.foldl afterEvent (write r s).state) ∧
      Recorded (es.foldl afterEvent (write r s).state) :=
    Along.keeps (P := fun s => Sound s ∧ Recorded s)
      (fun _ e hs he => afterEvent_admissible hs e he) hs₁ hes
  rw [← hsame.parent, ← hsame.key, required_of_small hsmall hfile] at hlook
  exact read_of_look hend.1 hlook hsmall hlarge

/-- So they are after a run of calls. -/
theorem read_written_calls
    (h : Reached NewSystem WellScoped after s)
    (hr : WellScoped s (.write r))
    (hpos : 0 < r.bufferSize.toNat)
    (hw : (write r s).result = .ok 0)
    {cs : List Call}
    (hcs : Along WellScoped after (write r s).state cs)
    (hkept : ∀ x, Call.delete x ∈ cs → ¬ SameEntry r x)
    (hsame : SameEntry r r')
    (hlarge : 2048 * clusterCount r.bufferSize ≤ r'.bufferSize.toNat) :
    (read r' (cs.foldl after (write r s).state)).result =
      .ok (0, deliveriesFrom 0 (chunks r.buf 0 (clusterCount r.bufferSize))) := by
  have hevents := along_calls (hcs.mono fun _ _ hc => hc.1.safe)
  have hothers : ∀ x, Event.call (.delete x) ∈ cs.map Event.call → ¬ SameEntry r x := by
    intro x hx
    obtain ⟨c, hc, heq⟩ := List.mem_map.mp hx
    cases heq
    exact hkept x hc
  rw [← foldl_calls]
  exact read_written (h.mono fun _ _ _ hc => hc.1.safe) hr.1.parent hpos (hr.2 r rfl) hw hevents
    hothers hsame hlarge

/-- They hold the data. -/
theorem deliver_written
    (m : Stdlib.Memory)
    {i : Nat}
    (hi : i < r.bufferSize.toNat) :
    deliver m (deliveriesFrom 0 (chunks r.buf 0 (clusterCount r.bufferSize))) i = r.buf i := by
  refine deliver_chunks r.buf m 0 _ (by rw [Nat.zero_mul]; exact Nat.zero_le i) ?_
  rw [clusterCount, Nat.zero_add]
  omega

end Stored

end Fat32
end OS2024
