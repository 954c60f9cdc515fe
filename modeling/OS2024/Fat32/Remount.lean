import OS2024.Fat32.Calls

/-!
# Mounting again

The driver may be mounted on its own disk at any time, with whatever its cache holds then.
A session is a run of calls and mounts that starts by mounting an unformatted disk.

**Results.**
* `session_sound`: every state of a session is sound.
* `remount_transparent`: no later call can tell that the driver was mounted again.
-/

namespace OS2024
namespace Fat32

open TracedState Runs

/-! ## Sessions -/

/-- The states just after mounting a disk without the signature. -/
def FirstMount (s : FileSystem) : Prop :=
  ∃ s₀ : FileSystem, s₀.disk 0 ≠ fsSignature ∧ s = (initializeFilesystemFat32 s₀).state

/-- What happens in a session: a call, or a mount that finds `cache` in the driver state. -/
inductive Event
  | call (c : Call)
  | mount (cache : FAT32FileAllocationTable)

/-- The driver mounted on the disk of `s`, whatever its cache. -/
abbrev remount (s : FileSystem) (cache : FAT32FileAllocationTable) :
    Outcome Fault FileSystem DiskEvent Unit :=
  initializeFilesystemFat32 ⟨s.disk, cache⟩

def afterEvent (s : FileSystem) : Event → FileSystem
  | Event.call c => after s c
  | Event.mount cache => (remount s cache).state

/-- Calls are well-scoped, and mounts are always possible. -/
def AdmitsEvent (s : FileSystem) : Event → Prop
  | Event.call c => WellScoped s c
  | Event.mount _ => True

/-- The states of all sessions. -/
abbrev Session (s : FileSystem) : Prop := Reached FirstMount AdmitsEvent afterEvent s

/-- What a client sees of a list of calls. -/
def replies : FileSystem → List Call → List (Except Fault Reply)
  | _, [] => []
  | s, c :: cs => (c.run s).result :: replies (after s c) cs

/-! ## Remounting -/

theorem FirstMount.created {s : FileSystem} (h : FirstMount s) : Created s := by
  obtain ⟨s₀, hboot, rfl⟩ := h
  rw [initialize_of_unformatted hboot]
  exact createFat32_created s₀

/-- The table on the disk is the cached one, entry for entry. -/
theorem Sound.fatTable_eq {s : FileSystem} (hs : Sound s) (i : Fin 512) :
    FAT32FileAllocationTable.ofBytes (s.disk.cluster 1) i = s.fatTable i :=
  congrFun (congrArg FileSystem.fatTable hs.mounted_eq) i

theorem afterEvent_sound {s : FileSystem} {e : Event} (hs : Sound s) (he : AdmitsEvent s e) :
    Sound (afterEvent s e) := by
  cases e with
  | call c => exact (after_edited hs he.1.safe).sound hs
  | mount cache =>
      rw [afterEvent, remount, initialize_of_sound hs]
      exact hs

/-- **Every state of a session is sound.** -/
theorem session_sound {s : FileSystem} (h : Session s) : Sound s :=
  h.invariant (fun _ hs => hs.created.sound) fun _ _ hs he => afterEvent_sound hs he

/-- **Throughout a session the table on the disk is the cached one and the boot block is the
signature, and mounting again changes neither the state nor any later reply.** -/
theorem remount_transparent {s : FileSystem} (h : Session s) :
    (∀ i, FAT32FileAllocationTable.ofBytes (s.disk.cluster 1) i = s.fatTable i) ∧
      s.disk 0 = fsSignature ∧
      ∀ cache, (remount s cache).result = .ok () ∧ (remount s cache).state = s ∧
        ∀ calls, replies (remount s cache).state calls = replies s calls := by
  have hs := session_sound h
  refine ⟨hs.fatTable_eq, hs.boot, fun cache => ?_⟩
  rw [remount, initialize_of_sound hs]
  exact ⟨rfl, rfl, fun _ => rfl⟩

theorem firstMount_emptySystem : FirstMount emptySystem := by
  have hboot : (fun _ _ => 0 : Disk) 0 ≠ fsSignature :=
    fun h => absurd (congrFun h 0) (by decide)
  exact ⟨⟨fun _ _ => 0, fun _ => 0⟩, hboot, by rw [initialize_of_unformatted hboot]; rfl⟩

/-- After the first file was written, a driver with an empty cache mounts the same file
system and reads the file as before. -/
theorem remount_firstWrite :
    (remount (after emptySystem (Call.write (requestFor ['a'] 2 3000))) fun _ => 0).state =
        after emptySystem (Call.write (requestFor ['a'] 2 3000)) ∧
      replies (remount (after emptySystem (Call.write (requestFor ['a'] 2 3000)))
          fun _ => 0).state [Call.read (requestFor ['a'] 2 4096)] =
        replies (after emptySystem (Call.write (requestFor ['a'] 2 3000)))
          [Call.read (requestFor ['a'] 2 4096)] := by
  have hsession : Session (afterEvent emptySystem
      (Event.call (Call.write (requestFor ['a'] 2 3000)))) :=
    Reached.step (Reached.start firstMount_emptySystem) wellScoped_firstWrite
  obtain ⟨-, hstate, hreplies⟩ := (remount_transparent hsession).2.2 fun _ => 0
  exact ⟨hstate, hreplies _⟩

end Fat32
end OS2024
