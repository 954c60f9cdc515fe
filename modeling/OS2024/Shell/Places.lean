import OS2024.Shell.Navigation

/-!
# The shell stays where it is

The commands change the file system under the shell.  What a `write` adds lies on no path yet, and
what a `delete` in the current directory takes away hangs below it, so the stack still leads to
where the shell is.

**Results.**
* `Ready.after`: a safe call that deletes nothing elsewhere leaves the shell where it is.
* `Ready.run`: so does a run of them.
-/

namespace OS2024
namespace Shell

open Fat32 SlotTree Runs

section Places

variable {s s' : FileSystem} {t : Session}

/-- A directory is not among those above it. -/
theorem not_mem_above
    (hs : Sound s)
    {d : UInt32}
    {l : List UInt32}
    (h : Path s.edge rootClusterNumber d l) :
    d ∉ l := by
  intro hd
  obtain ⟨l', h', hlt⟩ := h.of_mem hd
  rw [path_unique hs h h'] at hlt
  exact absurd hlt (Nat.lt_irrefl _)

/-- A directory in the current one is not among those above it. -/
theorem below_not_mem_above
    (hs : Sound s)
    {d c : UInt32}
    {l : List UInt32}
    {i : Fin 64}
    (h : Path s.edge rootClusterNumber d l)
    (he : s.edge d i = some c) :
    c ∉ l ++ [d] := by
  intro hc
  obtain ⟨l', h', hlt⟩ := (h.child he).of_mem hc
  rw [path_unique hs (h.child he) h'] at hlt
  exact absurd hlt (Nat.lt_irrefl _)

theorem Ready.live_of_mem
    (h : Ready s t)
    {d : UInt32}
    (hd : d ∈ t.globals.parents ++ [t.globals.currentDirCluster]) :
    LiveDir s d := by
  rcases List.mem_append.mp hd with hd | hd
  · exact h.onTree.path.reach_of_mem hd
  · rw [List.mem_singleton.mp hd]
    exact h.onTree.live

/-- The slots on the path and the names of its directories are all that matters. -/
theorem Ready.of_kept
    (h : Ready s t)
    (hedge : ∀ d, d ∈ t.globals.parents → ∀ i x, s.edge d i = some x → s'.edge d i = some x)
    (hself : ∀ d, d ∈ t.globals.parents ++ [t.globals.currentDirCluster] →
      s'.table d 0 = s.table d 0) :
    Ready s' { t with fileSystem := s' } := by
  have hpath : Path s'.edge rootClusterNumber t.globals.currentDirCluster t.globals.parents :=
    h.onTree.path.mono hedge
  refine ⟨rfl, ⟨hpath.reach, hpath, h.onTree.depth, h.onTree.root⟩, fun d hd => ?_, h.shallow,
    h.lastZero⟩
  rw [hself d hd]
  exact h.named d hd

variable {p : UInt32} {k : Fin 64} {cs : List UInt32}

theorem Ready.inserted
    {e : FAT32DirectoryEntry}
    {blocks : List ClusterBuffer}
    (hs : Sound s)
    (h : Ready s t)
    (hins : Inserted s s' p k e cs blocks) :
    Ready s' { t with fileSystem := s' } := by
  refine h.of_kept (fun d hd i x hx => ?_) fun d hd => ?_
  · have hslot : ¬ (d = p ∧ i = k) := by
      rintro ⟨rfl, rfl⟩
      exact hins.slot.2.1 (edge_eq_some_iff.mp hx).2.1
    rw [edge_congr (hins.slot_eq hs (h.onTree.path.reach_of_mem hd) hslot), hx]
  · exact hins.slot_eq hs (h.live_of_mem hd) fun he =>
      absurd (he.2 ▸ hins.two_le hs) (by decide)

/-- What is removed from the current directory lies on no path to it. -/
theorem Ready.removed
    (hs : Sound s)
    (h : Ready s t)
    (hrem : Removed s s' p k cs)
    (hhere : p = t.globals.currentDirCluster) :
    Ready s' { t with fileSystem := s' } := by
  have hgone : ∀ d, d ∈ t.globals.parents ++ [t.globals.currentDirCluster] →
      ¬ ((s.table p k).IsDir ∧ d = (s.table p k).cluster) := by
    rintro d hd ⟨hdir, rfl⟩
    have hedge : s.edge t.globals.currentDirCluster k = some (s.table p k).cluster := by
      rw [← hhere]
      exact edge_eq_some_iff.mpr ⟨hrem.child.2.1, hrem.child.2.2, hdir, rfl⟩
    exact below_not_mem_above hs h.onTree.path hedge hd
  refine h.of_kept (fun d hd i x hx => ?_) fun d hd => ?_
  · have hslot : ¬ (d = p ∧ i = k) := by
      rintro ⟨rfl, -⟩
      exact not_mem_above hs h.onTree.path (hhere ▸ hd)
    rw [edge_congr (hrem.slot_eq hs (h.onTree.path.reach_of_mem hd)
      (hgone d (List.mem_append_left _ hd)) hslot), hx]
  · refine hrem.slot_eq hs (h.live_of_mem hd) (hgone d hd) fun he => ?_
    exact absurd (he.2 ▸ hrem.child.2.1) (by decide)

/-- **A safe call that deletes nothing elsewhere leaves the shell where it is.** -/
theorem Ready.after
    {c : Call}
    (hs : Sound s)
    (h : Ready s t)
    (hc : Safe s c)
    (hhere : ∀ r, c = .delete r → r.parentClusterNumber = t.globals.currentDirCluster) :
    Ready (after s c) { t with fileSystem := after s c } := by
  cases safe_effect hs hc with
  | reads state _ =>
      rw [state, ← h.fileSystem]
      rwa [← h.fileSystem] at h
  | inserts _ _ _ _ _ _ inserted => exact h.inserted hs inserted
  | removes _ _ _ _ removed => exact h.removed hs removed (hhere _ rfl)

/-- So does a run of them. -/
theorem Ready.run
    {cs : List Call}
    (hs : Sound s)
    (h : Ready s t)
    (hcs : Along Safe Fat32.after s cs)
    (hhere : ∀ r, Call.delete r ∈ cs → r.parentClusterNumber = t.globals.currentDirCluster) :
    Ready (cs.foldl Fat32.after s) { t with fileSystem := cs.foldl Fat32.after s } := by
  induction cs generalizing s t with
  | nil =>
      have hfs := h.fileSystem
      subst hfs
      exact h
  | cons c cs ih =>
      have hstep := h.after hs hcs.1 fun r hr => hhere r (hr ▸ List.mem_cons_self)
      exact ih (t := { t with fileSystem := Fat32.after s c }) ((after_edited hs hcs.1).sound hs)
        hstep hcs.2 fun r hr => hhere r (List.mem_cons_of_mem c hr)

end Places

end Shell
end OS2024
