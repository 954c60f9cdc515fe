import OS2024.Shell.FileCommands

/-!
# How deep `cd` goes

The stack of parents and the rows of `dir_buff` have 256 entries each, and nothing bounds the
index of both.  `cd` takes any slot with a fitting name for a way down, so the record of a
directory leads down to the directory itself, as often as its name is given.  The prompt counts
the rows with eight bits, and at a depth of 255 its loop has no end.

At the bottom of the stack there is always the root, which `cd ..` does not leave.

**Results.**
* `Grounded.popParent`: `cd ..` does not take the index below 0.
* `cd_effect`: what a `cd` can do.
* `depthBounded_iff`: the walks that stay inside of the arrays and have a prompt at every step.
-/

namespace OS2024
namespace Shell

open Fat32 TracedState Runs

/-- One more `cd` and its prompt, for an argument of any length. -/
def afterAnyCd (image : UInt32 → FAT32DriverRequest) (r : Except ShellFault Session)
    (arg : Word) : Except ShellFault Session := do
  finish (cdCommand image arg.buff) (← r)

/-- The session after any sequence of `cd`. -/
def wander (image : UInt32 → FAT32DriverRequest) (s : FileSystem) (args : List Word) :
    Except ShellFault Session :=
  args.foldl (afterAnyCd image) (started s)

/-- The command came to its end, with the index inside of the arrays.  A run in which the
kernel stores a cluster through a stray pointer is followed up to there. -/
def InBounds : Except ShellFault Session → Prop
  | .ok t => t.globals.currentDir.bufferIndex.toNat < 256
  | .error e => e = ShellFault.strayStore

/-- **The property.**  All along the walk no array is left and every prompt is printed. -/
def DepthBounded
    (image : UInt32 → FAT32DriverRequest)
    (s : FileSystem)
    (args : List Word) : Prop :=
  ∀ as, as <+: args → InBounds (wander image s as)

/-- `cd` takes slot `i` for a way down. -/
structure GoesDown
    (t : Session)
    (dirname : StringBuff)
    (i : Fin 64) : Prop where
  short : ¬ 8 < dirname.len
  notUp : ¬ isDotDot dirname = true
  stops : StopsAt t.globals.currentDir.table dirname i

/-- `cd` goes down from a depth of 254, and the request it makes of the cluster number
delivers nothing. -/
def Overflows
    (image : UInt32 → FAT32DriverRequest)
    (t : Session)
    (dirname : StringBuff) : Prop :=
  254 ≤ t.globals.currentDir.bufferIndex.toNat ∧
    ∃ i, GoesDown t dirname i ∧
      Quiet image t.fileSystem (t.globals.currentDir.table i).cluster

/-- The next `cd` of a walk does not. -/
def StaysShallow (image : UInt32 → FAT32DriverRequest) :
    Except ShellFault Session → Word → Prop
  | .ok t, arg => ¬ Overflows image t arg.buff
  | .error _, _ => True

/-! ## The bottom of the stack -/

/-- The stack begins with the root, or the root is the current directory. -/
def Grounded (g : Globals) : Prop :=
  (g.parents ++ [g.currentDirCluster]).head? = some rootClusterNumber

section Bottom

variable {g g' : Globals} {c : UInt32}

theorem length_parents
    (h : g.currentDir.bufferIndex.toNat ≤ 256) :
    g.parents.length = g.currentDir.bufferIndex.toNat := by
  rw [Globals.parents, List.length_take, List.length_ofFn]
  omega

/-- Away from the root there is a directory to go back to. -/
theorem Grounded.popParent
    (h : Grounded g)
    (hindex : g.currentDir.bufferIndex.toNat ≤ 256)
    (hroot : g.currentDirCluster ≠ rootClusterNumber) :
    ∃ g', g.popParent = some g' ∧ g'.parents ++ [g'.currentDirCluster] = g.parents ∧
      Grounded g' ∧ g'.dirBuff = g.dirBuff ∧
      g'.currentDir.bufferIndex.toNat + 1 = g.currentDir.bufferIndex.toNat := by
  rcases List.eq_nil_or_concat' g.parents with hnil | ⟨l, p, hl⟩
  · rw [Grounded, hnil] at h
    exact absurd (Option.some_inj.mp h) hroot
  · obtain ⟨g', hpop, hcur, hparents, hdepth, -, hbuff⟩ :=
      popParent_parents (length_parents hindex) hl
    have hpath : g'.parents ++ [g'.currentDirCluster] = g.parents := by rw [hcur, hparents, hl]
    refine ⟨g', hpop, hpath, ?_, hbuff, hdepth⟩
    rw [Grounded, hpath]
    rwa [Grounded, List.head?_append_of_ne_nil _ (by rw [hl]; simp)] at h

theorem Grounded.pushParent
    (h : Grounded g)
    (hpush : g.pushParent c = some g') :
    Grounded g' := by
  obtain ⟨hcur, hparents, -⟩ := pushParent_parents hpush
  rw [Grounded, hparents, List.head?_append_of_ne_nil _ (by simp)]
  exact h

end Bottom

/-! ## One `cd` -/

/-- Where the shell is between a `cd` and its prompt. -/
structure Within (t : Session) : Prop where
  grounded : Grounded t.globals
  lastZero : t.globals.LastZero
  index : t.globals.currentDir.bufferIndex.toNat ≤ 255

/-- Where the shell waits for a command. -/
structure Waiting (t : Session) : Prop extends Within t where
  shallow : t.globals.currentDir.bufferIndex.toNat < 255

/-- What a `cd` can do. -/
inductive CdEffect
    (image : UInt32 → FAT32DriverRequest)
    (t : Session)
    (dirname : StringBuff) :
    Except ShellFault Session → Prop
  | stays : CdEffect image t dirname (.ok t)
  | up {g : Globals} (code : Int8) :
      t.globals.currentDirCluster ≠ rootClusterNumber → t.globals.popParent = some g →
      CdEffect image t dirname (.ok { t with globals := g.withCode code })
  | down {i : Fin 64} {g : Globals} (code : Int8) :
      GoesDown t dirname i →
      Quiet image t.fileSystem (t.globals.currentDir.table i).cluster →
      t.globals.pushParent (t.globals.currentDir.table i).cluster = some g →
      CdEffect image t dirname (.ok { t with globals := g.withCode code })
  | strays : CdEffect image t dirname (.error ShellFault.strayStore)

section Effects

variable {image : UInt32 → FAT32DriverRequest} {t t' : Session} {dirname : StringBuff}
  {i : Fin 64} {g : Globals}

theorem finish_eq_error
    {x : ShellM Unit}
    {e : ShellFault} :
    finish x t = .error e ↔ (x t).result = .error e := by
  rcases hx : x t with ⟨e' | a, t₁, w⟩ <;> simp [finish, hx, Except.map]

/-- One command after another. -/
theorem finish_bind (x y : ShellM Unit) (t : Session) :
    finish (x >>= fun _ => y) t = finish x t >>= finish y := by
  rw [finish, bind_apply]
  rcases hx : x t with ⟨e | a, t₁, w⟩ <;> simp [finish, hx, Except.map, bind, Except.bind]

theorem goesDown_push
    (image : UInt32 → FAT32DriverRequest)
    (h : GoesDown t dirname i)
    (hindex : t.globals.currentDir.bufferIndex.toNat < 256) :
    ∃ g, t.globals.pushParent (t.globals.currentDir.table i).cluster = some g ∧
      g.currentDirCluster = (t.globals.currentDir.table i).cluster ∧
      cd image dirname t = moveTo image (some g) t.globals.currentDir.bufferIndex t := by
  obtain ⟨g, hpush⟩ := exists_pushParent hindex (t.globals.currentDir.table i).cluster
  refine ⟨g, hpush, (pushParent_parents hpush).1, ?_⟩
  rw [cd, cdWith_down h.short h.stops h.notUp, hpush]

/-- **What a `cd` does away from the end of the arrays.** -/
theorem cd_effect
    (image : UInt32 → FAT32DriverRequest)
    (h : Waiting t)
    (dirname : StringBuff) :
    CdEffect image t dirname (finish (cd image dirname) t) := by
  have hstays : Ends (cd image dirname) t () t →
      CdEffect image t dirname (finish (cd image dirname) t) := by
    intro hends
    rw [finish_eq_ok.mpr hends]
    exact CdEffect.stays
  by_cases hlong : 8 < dirname.len
  · exact hstays (cdWith_tooLong hlong)
  rcases cdStops_cases t.globals.currentDir.table dirname with ⟨i, hi⟩ | hno
  swap
  · exact hstays (cdWith_notFound hlong hno)
  by_cases hup : isDotDot dirname = true
  · by_cases hroot : t.globals.currentDirCluster = rootClusterNumber
    · exact hstays (cdWith_root hlong hi hup hroot)
    obtain ⟨g, hpop, -⟩ := h.grounded.popParent (by have := h.index; omega) hroot
    have hrun : cdWith image true dirname t =
        (do
          moveTo image t.globals.popParent (t.globals.currentDir.bufferIndex - 1)
          say true (literal "Changed directory to parent directory\n") 0x2 : ShellM Unit) t :=
      cdWith_up hlong hi hup hroot
    rw [hpop] at hrun
    by_cases hquiet : Quiet image t.fileSystem g.currentDirCluster
    · obtain ⟨code, harrives⟩ := arrives_of_quiet hquiet
      have hends : Ends (cd image dirname) t () { t with globals := g.withCode code } := by
        rw [Ends, cd, hrun]
        exact (moveTo_arrives harrives _).bind (say_ends true _ 0x2 _)
      rw [finish_eq_ok.mpr hends]
      exact CdEffect.up code hroot hpop
    · have herror : (cd image dirname t).result = .error ShellFault.strayStore := by
        rw [cd, hrun]
        exact bind_result_error (moveTo_strays hquiet _)
      rw [finish_eq_error.mpr herror]
      exact CdEffect.strays
  · have hdown : GoesDown t dirname i := ⟨hlong, hup, hi⟩
    have hindex : t.globals.currentDir.bufferIndex.toNat < 256 := by
      have := h.index
      omega
    obtain ⟨g, hpush, hcur, hrun⟩ := goesDown_push image hdown hindex
    by_cases hquiet : Quiet image t.fileSystem (t.globals.currentDir.table i).cluster
    · obtain ⟨code, harrives⟩ := arrives_of_quiet (hcur ▸ hquiet)
      have hends : Ends (cd image dirname) t () { t with globals := g.withCode code } := by
        rw [Ends, hrun]
        exact moveTo_arrives harrives _
      rw [finish_eq_ok.mpr hends]
      exact CdEffect.down code hdown hquiet hpush
    · have herror : (cd image dirname t).result = .error ShellFault.strayStore := by
        rw [hrun]
        exact moveTo_strays (hcur ▸ hquiet) _
      rw [finish_eq_error.mpr herror]
      exact CdEffect.strays

theorem Within.prompted
    (h : Within t)
    (hindex : t.globals.currentDir.bufferIndex.toNat < 255) :
    finish cetakPrompt t = .ok t.prompted ∧ Waiting t.prompted :=
  ⟨finish_eq_ok.mpr (cetakPrompt_ends hindex h.lastZero),
    ⟨h.grounded, withPrompt_lastZero (g := t.loaded) h.lastZero hindex, h.index⟩, hindex⟩

/-- A `cd` leaves the shell with the root at the bottom of its stack, at most one level
further down. -/
theorem CdEffect.within
    (h : Waiting t)
    (heffect : CdEffect image t dirname (.ok t')) :
    Within t' := by
  cases heffect with
  | stays => exact h.toWithin
  | @up g code hroot hpop =>
      obtain ⟨g', hpop', -, hgrounded, hbuff, hdepth⟩ :=
        h.grounded.popParent (by have := h.index; omega) hroot
      obtain rfl : g' = g := Option.some_inj.mp (hpop'.symm.trans hpop)
      refine ⟨hgrounded, (congrFun (congrFun hbuff _) _).trans h.lastZero, ?_⟩
      have hindex := h.index
      show g'.currentDir.bufferIndex.toNat ≤ 255
      omega
  | @down i g code _ _ hpush =>
      obtain ⟨-, -, -, hdepth, -, hbuff⟩ := pushParent_parents hpush
      refine ⟨show Grounded g from h.grounded.pushParent hpush,
        (congrFun (congrFun hbuff _) _).trans h.lastZero, ?_⟩
      have hshallow := h.shallow
      show g.currentDir.bufferIndex.toNat ≤ 255
      omega

/-- Only a way down from a depth of 254 leads to where the prompt has no end. -/
theorem CdEffect.shallow
    (h : Waiting t)
    (hshallow : ¬ Overflows image t dirname)
    (heffect : CdEffect image t dirname (.ok t')) :
    t'.globals.currentDir.bufferIndex.toNat < 255 := by
  cases heffect with
  | stays => exact h.shallow
  | @up g code hroot hpop =>
      obtain ⟨g', hpop', -, -, -, hdepth⟩ := h.grounded.popParent (by have := h.index; omega) hroot
      obtain rfl : g' = g := Option.some_inj.mp (hpop'.symm.trans hpop)
      have hindex := h.index
      show g'.currentDir.bufferIndex.toNat < 255
      omega
  | @down i g code hdown hquiet hpush =>
      obtain ⟨-, -, -, hdepth, -, -⟩ := pushParent_parents hpush
      have hlow : ¬ 254 ≤ t.globals.currentDir.bufferIndex.toNat :=
        fun hlow => hshallow ⟨hlow, i, hdown, hquiet⟩
      show g.currentDir.bufferIndex.toNat < 255
      omega

theorem finish_cdCommand (t : Session) :
    finish (cdCommand image dirname) t =
      (do finish cetakPrompt (← finish (cd image dirname) t)) := by
  have hputs : finish (puts (literal "\n") 0x7) t = .ok t :=
    finish_eq_ok.mpr (Ends.of_apply (puts_literal "\n" 0x7 t))
  rw [cdCommand, finish_bind, hputs]
  exact finish_bind _ _ t

/-- **A `cd` that does not overflow leads to the next prompt, unless the kernel strays.** -/
theorem cdCommand_waiting
    (h : Waiting t)
    (hshallow : ¬ Overflows image t dirname) :
    (∃ t', finish (cdCommand image dirname) t = .ok t' ∧ Waiting t') ∨
      finish (cdCommand image dirname) t = .error ShellFault.strayStore := by
  have heffect := cd_effect image h dirname
  rw [finish_cdCommand]
  generalize finish (cd image dirname) t = r at heffect
  cases r with
  | ok t₁ =>
      obtain ⟨hprompt, hwaiting⟩ :=
        (heffect.within h).prompted (heffect.shallow h hshallow)
      exact Or.inl ⟨t₁.prompted, hprompt, hwaiting⟩
  | error e =>
      cases heffect
      exact Or.inr rfl

/-- A way down that is not strayed from is taken. -/
theorem GoesDown.finish
    (hdown : GoesDown t dirname i)
    (hquiet : Quiet image t.fileSystem (t.globals.currentDir.table i).cluster)
    (hindex : t.globals.currentDir.bufferIndex.toNat < 256) :
    ∃ g code, t.globals.pushParent (t.globals.currentDir.table i).cluster = some g ∧
      Shell.finish (cd image dirname) t = .ok { t with globals := g.withCode code } := by
  obtain ⟨g, hpush, hcur, hrun⟩ := goesDown_push image hdown hindex
  obtain ⟨code, harrives⟩ := arrives_of_quiet (hcur ▸ hquiet)
  refine ⟨g, code, hpush, finish_eq_ok.mpr ?_⟩
  rw [Ends, hrun]
  exact moveTo_arrives harrives _

/-- **At a depth of 255 there is no prompt.** -/
theorem cdCommand_overflows
    (h : Waiting t)
    (hdeep : Overflows image t dirname) :
    finish (cdCommand image dirname) t = .error ShellFault.endlessPrompt := by
  obtain ⟨hlow, i, hdown, hquiet⟩ := hdeep
  obtain ⟨g, code, hpush, hrun⟩ := hdown.finish hquiet (by have := h.index; omega)
  obtain ⟨-, -, -, hdepth, -, -⟩ := pushParent_parents hpush
  have hshallow := h.shallow
  have hindex : g.currentDir.bufferIndex.toNat = 255 := by omega
  rw [finish_cdCommand, hrun]
  exact finish_eq_error.mpr (cetakPrompt_endless hindex)

end Effects

/-! ## Walks -/

section Walks

variable {image : UInt32 → FAT32DriverRequest} {s : FileSystem}

theorem waiting_start (s : FileSystem) :
    started s = .ok (firstLoaded s).prompted ∧ Waiting (firstLoaded s).prompted := by
  have hwithin : Within (firstLoaded s) := ⟨rfl, rfl, Nat.zero_le 255⟩
  obtain ⟨hprompt, hwaiting⟩ := hwithin.prompted (Nat.succ_pos 254)
  exact ⟨started_eq (finish_eq_ok.mp hprompt), hwaiting⟩

/-- **On any file system, a walk stays inside of the arrays and has a prompt at every step
exactly if none of its `cd` goes down from a depth of 254.** -/
theorem depthBounded_iff
    (image : UInt32 → FAT32DriverRequest)
    (s : FileSystem)
    (args : List Word) :
    DepthBounded image s args ↔
      Along (StaysShallow image) (afterAnyCd image) (started s) args := by
  have hgood : ∀ r a, ((∃ t, r = Except.ok t ∧ Waiting t) ∨ r = .error ShellFault.strayStore) →
      StaysShallow image r a →
      (∃ t, afterAnyCd image r a = .ok t ∧ Waiting t) ∨
        afterAnyCd image r a = .error ShellFault.strayStore := by
    rintro _ a (⟨t, rfl, ht⟩ | rfl) hshallow
    · exact cdCommand_waiting ht hshallow
    · exact Or.inr rfl
  have hbad : ∀ r a, ((∃ t, r = Except.ok t ∧ Waiting t) ∨ r = .error ShellFault.strayStore) →
      ¬ StaysShallow image r a → ¬ InBounds (afterAnyCd image r a) := by
    rintro _ a (⟨t, rfl, ht⟩ | rfl) hdeep
    · have hrun : afterAnyCd image (.ok t) a = .error ShellFault.endlessPrompt :=
        cdCommand_overflows ht (not_not.mp hdeep)
      rw [hrun]
      exact fun h => by cases h
    · exact absurd trivial hdeep
  refine prefixes_iff_along hgood hbad ?_ (Or.inl ⟨_, waiting_start s⟩)
  rintro _ (⟨t, rfl, ht⟩ | rfl)
  · exact Nat.lt_trans ht.shallow (Nat.lt_succ_self 255)
  · rfl

end Walks

/-! ## Going round in a folder -/

/-- The shell waits in directory `d`, at depth `n`. -/
structure WaitingIn
    (s : FileSystem)
    (d : UInt32)
    (n : Nat)
    (t : Session) : Prop extends Waiting t where
  fileSystem : t.fileSystem = s
  cluster : t.globals.currentDirCluster = d
  table : t.globals.currentDir.table = s.table d
  depth : t.globals.currentDir.bufferIndex.toNat = n

section Rounds

variable {image : UInt32 → FAT32DriverRequest} {s : FileSystem} {t : Session} {d : UInt32}
  {n : Nat} {arg : Word} {i : Fin 64}

theorem waitingIn_start (s : FileSystem) :
    WaitingIn s rootClusterNumber 0 (firstLoaded s).prompted :=
  ⟨(waiting_start s).2, rfl, rfl, rfl, rfl⟩

theorem WaitingIn.goesDown
    (h : WaitingIn s d n t)
    (hshort : ¬ 8 < arg.buff.len)
    (hup : ¬ isDotDot arg.buff = true)
    (hstops : StopsAt (s.table d) arg.buff i) :
    GoesDown t arg.buff i :=
  ⟨hshort, hup, by rwa [h.table]⟩

/-- One level further down. -/
theorem WaitingIn.down
    (h : WaitingIn s d n t)
    (hdown : GoesDown t arg.buff i)
    (hquiet : Quiet image s (s.table d i).cluster)
    (hn : n < 254) :
    ∃ t', afterAnyCd image (.ok t) arg = .ok t' ∧ WaitingIn s (s.table d i).cluster (n + 1) t' := by
  have hindex := h.depth
  rw [← h.table, ← h.fileSystem] at hquiet
  obtain ⟨g, code, hpush, hrun⟩ := hdown.finish hquiet (by omega)
  obtain ⟨hcur, -, -, hdepth, -, hbuff⟩ := pushParent_parents hpush
  have hwithin : Within { t with globals := g.withCode code } :=
    ⟨show Grounded g from h.grounded.pushParent hpush,
      (congrFun (congrFun hbuff _) _).trans h.lastZero,
      (show g.currentDir.bufferIndex.toNat ≤ 255 by omega)⟩
  obtain ⟨hprompt, hwaiting⟩ :=
    hwithin.prompted (show g.currentDir.bufferIndex.toNat < 255 by omega)
  refine ⟨_, ?_, hwaiting, h.fileSystem, hcur.trans (by rw [h.table]), ?_, hdepth.trans (by omega)⟩
  · show finish (cdCommand image arg.buff) t = _
    rw [finish_cdCommand, hrun]
    exact hprompt
  · show t.fileSystem.table g.currentDirCluster = _
    rw [h.fileSystem, hcur, h.table]

/-- A name that leads from a directory to itself can be given again and again. -/
theorem WaitingIn.rounds
    (h : WaitingIn s d n t)
    (hshort : ¬ 8 < arg.buff.len)
    (hup : ¬ isDotDot arg.buff = true)
    (hstops : StopsAt (s.table d) arg.buff i)
    (hself : (s.table d i).cluster = d)
    (hquiet : Quiet image s d)
    (k : Nat)
    (hk : n + k ≤ 254) :
    ∃ t', (List.replicate k arg).foldl (afterAnyCd image) (.ok t) = .ok t' ∧
      WaitingIn s d (n + k) t' := by
  induction k with
  | zero => exact ⟨t, rfl, h⟩
  | succ k ih =>
      obtain ⟨t₁, hrun, ht₁⟩ := ih (by omega)
      obtain ⟨t', hstep, ht'⟩ :=
        ht₁.down (ht₁.goesDown hshort hup hstops) (hself.symm ▸ hquiet) (by omega)
      rw [hself] at ht'
      refine ⟨t', ?_, ht'⟩
      rw [List.replicate_succ', List.foldl_append, hrun]
      exact hstep

/-- At last the prompt does not come any more. -/
theorem WaitingIn.endless
    (h : WaitingIn s d n t)
    (hshort : ¬ 8 < arg.buff.len)
    (hup : ¬ isDotDot arg.buff = true)
    (hstops : StopsAt (s.table d) arg.buff i)
    (hself : (s.table d i).cluster = d)
    (hquiet : Quiet image s d)
    {k : Nat}
    (hk : n + k = 254) :
    (List.replicate (k + 1) arg).foldl (afterAnyCd image) (.ok t) =
      .error ShellFault.endlessPrompt := by
  obtain ⟨t', hrun, ht'⟩ := h.rounds hshort hup hstops hself hquiet k hk.le
  have hdeep : Overflows image t' arg.buff := by
    refine ⟨by rw [ht'.depth, hk], i, ht'.goesDown hshort hup hstops, ?_⟩
    rw [ht'.table, ht'.fileSystem, hself]
    exact hquiet
  rw [List.replicate_succ', List.foldl_append, hrun]
  exact cdCommand_overflows ht'.toWaiting hdeep

theorem not_depthBounded
    {args : List Word}
    (h : wander image s args = .error ShellFault.endlessPrompt) :
    ¬ DepthBounded image s args := by
  intro hbounded
  have hbounds := hbounded args (List.prefix_refl args)
  rw [h] at hbounds
  cases hbounds

end Rounds

/-- The name of the folder in `folderSystem`. -/
def wordA : Word := ⟨[97], by decide, by decide, by decide⟩

/-- `cd a` for the 255th time leads to a prompt without an end. -/
theorem cd_again_and_again :
    Reached NewSystem WellScoped after folderSystem ∧
      wander silentImage folderSystem (wordA :: List.replicate 254 wordA) =
        .error ShellFault.endlessPrompt ∧
      ¬ DepthBounded silentImage folderSystem (wordA :: List.replicate 254 wordA) := by
  have hshort : ¬ 8 < wordA.buff.len := by decide
  have hup : ¬ isDotDot wordA.buff = true := by decide
  have hroot : StopsAt (folderSystem.table rootClusterNumber) wordA.buff 2 := by
    unfold StopsAt
    decide +kernel
  have hfolder : StopsAt (folderSystem.table 3) wordA.buff 0 := by
    unfold StopsAt
    decide +kernel
  have hthree : (folderSystem.table rootClusterNumber 2).cluster = 3 := by decide +kernel
  have hself : (folderSystem.table 3 0).cluster = 3 := by decide +kernel
  have hquiet : Quiet silentImage folderSystem 3 := by decide +kernel
  have hfirst := waitingIn_start folderSystem
  obtain ⟨t, hrun, ht⟩ :=
    hfirst.down (hfirst.goesDown hshort hup hroot) (hthree.symm ▸ hquiet) (by decide)
  rw [hthree] at ht
  have hend : wander silentImage folderSystem (wordA :: List.replicate 254 wordA) =
      .error ShellFault.endlessPrompt := by
    rw [wander, (waiting_start folderSystem).1, List.foldl_cons, hrun]
    exact ht.endless hshort hup hfolder hself hquiet rfl
  exact ⟨folderSystem_reached, hend, not_depthBounded hend⟩

end Shell
end OS2024
