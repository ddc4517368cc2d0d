import AgenticPkm.Dispatcher.Leases

/-!
# Live leases and fenced transactions

A lease is live while it is neither released nor expired.  Leases are exclusive when a
task has one live lease at most, and its row references that lease and its holder.  A
fenced transaction checks what it replaces in the same transaction that replaces it:
it ends a lease that is expired or its own, renews its own, or takes one for a task that
references none.  Such transactions keep the leases exclusive.  The write of a whole row
does if the row keeps the live lease of its task.
-/

namespace AgenticPkm.Dispatcher

open List Dict

/-! ### Live leases -/

namespace Store

/-- The lease was taken for the task, and is neither released nor expired. -/
def Live (store : Store) (clock : ℤ) (taskId leaseId : String) (lease : LeaseRecord) : Prop :=
  (taskId, leaseId) ∈ store.claims ∧ store.leases.get? leaseId = some lease ∧
    lease.isReleased = false ∧ clock < lease.expiresAt

/-- A task has at most one live lease, and its row references that lease and its holder. -/
structure Exclusive (store : Store) (clock : ℤ) : Prop where
  unique : ∀ {taskId leaseId leaseId' lease lease'}, store.Live clock taskId leaseId lease →
    store.Live clock taskId leaseId' lease' → leaseId = leaseId'
  referenced : ∀ {taskId leaseId lease}, store.Live clock taskId leaseId lease →
    ∃ task, store.tasks.get? taskId = some task ∧ task.leaseId = some leaseId ∧
      task.claimedBy = some lease.holder

/-- The live leases of agents other than `actor` are as before and still referenced, and
their tasks were not put back to ready. -/
def Respects (actor : Option String) (clock : ℤ) (store store' : Store) : Prop :=
  ∀ ⦃taskId leaseId lease⦄, store.Live clock taskId leaseId lease → some lease.holder ≠ actor →
    store'.leases.get? leaseId = some lease ∧
      ∃ task task', store.tasks.get? taskId = some task ∧
        store'.tasks.get? taskId = some task' ∧ task'.leaseId = some leaseId ∧
        (task'.status = .ready → task.status = .ready)

variable {store : Store}

theorem Exclusive.of_referenced {c : ℤ}
    (h : ∀ {taskId leaseId lease}, store.Live c taskId leaseId lease →
      ∃ task, store.tasks.get? taskId = some task ∧ task.leaseId = some leaseId ∧
        task.claimedBy = some lease.holder) : store.Exclusive c where
  referenced := h
  unique := by
    intro taskId leaseId leaseId' lease lease' hlv hlv'
    obtain ⟨task, ht, hl, -⟩ := h hlv
    obtain ⟨task', ht', hl', -⟩ := h hlv'
    rw [ht] at ht'
    cases ht'
    rw [hl] at hl'
    exact Option.some_inj.mp hl'

/-! ### Coherent stores -/

/-- The lease that a row names was taken for its task, and the row names its holder. -/
def RowSound (store : Store) (task : TaskRecord) : Prop :=
  ∀ leaseId, task.leaseId = some leaseId → (task.taskId, leaseId) ∈ store.claims ∧
    ∃ lease, store.leases.get? leaseId = some lease ∧ task.claimedBy = some lease.holder

/-- Rows stand under their identifiers and are sound, and a lease is taken for one task. -/
structure Coherent (store : Store) : Prop where
  taskIds : ∀ {taskId task}, store.tasks.get? taskId = some task → task.taskId = taskId
  rows : ∀ {taskId task}, store.tasks.get? taskId = some task → store.RowSound task
  leaseIds : ∀ {leaseId lease}, store.leases.get? leaseId = some lease →
    lease.leaseId = leaseId
  claimed : ∀ {taskId leaseId}, (taskId, leaseId) ∈ store.claims →
    ∃ lease, store.leases.get? leaseId = some lease
  claimedOnce : ∀ {taskId taskId' leaseId}, (taskId, leaseId) ∈ store.claims →
    (taskId', leaseId) ∈ store.claims → taskId = taskId'

/-- Leases stay, with their holder, and what is released stays released. -/
structure Grows (store store' : Store) : Prop where
  claims : store.claims ⊆ store'.claims
  leases : ∀ {leaseId lease}, store.leases.get? leaseId = some lease →
    ∃ lease', store'.leases.get? leaseId = some lease' ∧ lease'.holder = lease.holder ∧
      (lease.isReleased = true → lease'.isReleased = true)

theorem Grows.refl (store : Store) : store.Grows store where
  claims := List.Subset.refl _
  leases := fun h => ⟨_, h, rfl, id⟩

theorem Grows.trans {store' store'' : Store} (h : store.Grows store') (h' : store'.Grows store'') :
    store.Grows store'' where
  claims := List.Subset.trans h.claims h'.claims
  leases := by
    intro leaseId lease hl
    obtain ⟨lease', hl', hh, hrel⟩ := h.leases hl
    obtain ⟨lease'', hl'', hh', hrel'⟩ := h'.leases hl'
    exact ⟨lease'', hl'', hh'.trans hh, fun hr => hrel' (hrel hr)⟩

theorem RowSound.mono {store' : Store} (hg : store.Grows store') {task : TaskRecord}
    (h : store.RowSound task) : store'.RowSound task := by
  intro leaseId hlid
  obtain ⟨hcl, lease, hl, hh⟩ := h leaseId hlid
  obtain ⟨lease', hl', hsame, -⟩ := hg.leases hl
  exact ⟨hg.claims hcl, lease', hl', hh.trans (by rw [hsame])⟩

theorem RowSound.of_leaseId_none {task : TaskRecord} (h : task.leaseId = none) :
    store.RowSound task := by
  intro leaseId hl
  rw [h] at hl
  cases hl

theorem Coherent.empty : Coherent {} := by
  constructor <;> simp

end Store

open Store

/-! ### Fenced transactions -/

/-- A lease row is replaced: the identifier and the holder stay, and what is released
stays released. -/
structure LeaseUpdate (store : Store) (leaseId : String) (lease lease' : LeaseRecord) :
    Prop where
  stored : store.leases.get? leaseId = some lease
  leaseId_eq : lease'.leaseId = lease.leaseId
  holder_eq : lease'.holder = lease.holder
  released : lease.isReleased = true → lease'.isReleased = true

/-- What one fenced transaction does on behalf of `actor`. -/
inductive Fenced (clock : ℤ) (actor : Option String) (store : Store) : Store → Prop
  /-- The lease of a task ends, expired or by its holder. -/
  | ended {taskId leaseId : String} {task task' : TaskRecord} {lease lease' : LeaseRecord}
      (htask : store.tasks.get? taskId = some task) (hleaseId : task.leaseId = some leaseId)
      (hupdate : LeaseUpdate store leaseId lease lease') (hreleased : lease'.isReleased = true)
      (hmay : some lease.holder = actor ∨ lease.expiresAt ≤ clock)
      (hid : task'.taskId = task.taskId) (hnone : task'.leaseId = none) :
      Fenced clock actor store
        { store with
          tasks := store.tasks.set taskId task', leases := store.leases.set leaseId lease' }
  /-- The holder renews the lease of a task. -/
  | renewed {taskId leaseId : String} {task task' : TaskRecord} {lease lease' : LeaseRecord}
      (htask : store.tasks.get? taskId = some task) (hleaseId : task.leaseId = some leaseId)
      (hupdate : LeaseUpdate store leaseId lease lease') (hmay : some lease.holder = actor)
      (hid : task'.taskId = task.taskId) (hleaseId' : task'.leaseId = some leaseId)
      (hclaimedBy : task'.claimedBy = some lease.holder) :
      Fenced clock actor store
        { store with
          tasks := store.tasks.set taskId task', leases := store.leases.set leaseId lease' }
  /-- The holder releases a lease. -/
  | dropped {leaseId : String} {lease lease' : LeaseRecord}
      (hupdate : LeaseUpdate store leaseId lease lease') (hreleased : lease'.isReleased = true)
      (hmay : some lease.holder = actor) :
      Fenced clock actor store { store with leases := store.leases.set leaseId lease' }
  /-- A new lease is taken for a task that references none. -/
  | taken {taskId : String} {task task' : TaskRecord} {lease : LeaseRecord}
      (htask : store.tasks.get? taskId = some task) (hnone : task.leaseId = none)
      (hfresh : store.leases.get? lease.leaseId = none) (hid : task'.taskId = task.taskId)
      (hleaseId : task'.leaseId = some lease.leaseId)
      (hclaimedBy : task'.claimedBy = some lease.holder) :
      Fenced clock actor store
        { tasks := store.tasks.set taskId task'
          leases := store.leases.set lease.leaseId lease
          claims := store.claims ++ [(taskId, lease.leaseId)] }

section Fenced

variable {cl : ℤ} {a : Option String} {store store' : Store} {leaseId taskId : String}
  {lease lease' : LeaseRecord}

theorem LeaseUpdate.grows (h : LeaseUpdate store leaseId lease lease')
    (tasks : Dict String TaskRecord) :
    store.Grows { store with tasks := tasks, leases := store.leases.set leaseId lease' } where
  claims := List.Subset.refl _
  leases := by
    intro leaseId' stored hs
    by_cases hid : leaseId' = leaseId
    · subst hid
      rw [h.stored] at hs
      cases hs
      exact ⟨lease', get?_set_self .., h.holder_eq, h.released⟩
    · exact ⟨stored, (get?_set_of_ne _ _ hid).trans hs, rfl, id⟩

theorem Fenced.grows (h : Fenced cl a store store') : store.Grows store' := by
  cases h with
  | ended _ _ hu | renewed _ _ hu | dropped hu => exact hu.grows _
  | @taken taskId task task' lease _ _ hf =>
    refine ⟨subset_append_left .., ?_⟩
    intro leaseId stored hs
    have hne : leaseId ≠ lease.leaseId := by
      rintro rfl
      rw [hf] at hs
      cases hs
    exact ⟨stored, (get?_set_of_ne _ _ hne).trans hs, rfl, id⟩

variable {task' : TaskRecord}

theorem coherent_set (hcoh : store.Coherent) (hgrw : store.Grows store')
    (hts : ∀ id, store'.tasks.get? id = if id = taskId then some task' else store.tasks.get? id)
    (hlss : ∀ id, store'.leases.get? id =
      if id = leaseId then some lease' else store.leases.get? id)
    (hcls : ∀ p ∈ store'.claims, p ∈ store.claims ∨
      p = (taskId, leaseId) ∧ store.leases.get? leaseId = none) (hid : task'.taskId = taskId)
    (hls : lease'.leaseId = leaseId) (hrow : store'.RowSound task') : store'.Coherent where
  taskIds := by
    intro id task htk
    rw [hts] at htk
    split at htk
    · cases htk
      rename_i heq
      rw [heq, hid]
    · exact hcoh.taskIds htk
  rows := by
    intro id task htk
    rw [hts] at htk
    split at htk
    · cases htk
      exact hrow
    · exact (hcoh.rows htk).mono hgrw
  leaseIds := by
    intro id lease hget
    rw [hlss] at hget
    split at hget
    · cases hget
      rename_i heq
      rw [heq, hls]
    · exact hcoh.leaseIds hget
  claimed := by
    intro id id' hcl
    rcases hcls _ hcl with hold | ⟨hnew, -⟩
    · obtain ⟨lease, hget⟩ := hcoh.claimed hold
      obtain ⟨after, haft, -⟩ := hgrw.leases hget
      exact ⟨after, haft⟩
    · cases hnew
      exact ⟨lease', (hlss _).trans (if_pos rfl)⟩
  claimedOnce := by
    intro id id' claimId hcl hcl'
    rcases hcls _ hcl with hold | ⟨hnew, hfr⟩ <;>
      rcases hcls _ hcl' with hold' | ⟨hnew', hfr'⟩
    · exact hcoh.claimedOnce hold hold'
    · cases hnew'
      obtain ⟨lease, hget⟩ := hcoh.claimed hold
      rw [hfr'] at hget
      cases hget
    · cases hnew
      obtain ⟨lease, hget⟩ := hcoh.claimed hold'
      rw [hfr] at hget
      cases hget
    · cases hnew
      cases hnew'
      rfl

theorem Fenced.coherent (h : Fenced cl a store store') (hcoh : store.Coherent) :
    store'.Coherent := by
  have hgrw := h.grows
  cases h with
  | @ended taskId leaseId task task' lease lease' htk hlid hupd _ _ hid hno =>
    exact coherent_set hcoh hgrw (get?_set _ _ · _) (get?_set _ _ · _)
      (fun p hp => .inl hp) (hid.trans (hcoh.taskIds htk))
      (hupd.leaseId_eq.trans (hcoh.leaseIds hupd.stored)) (.of_leaseId_none hno)
  | @renewed taskId leaseId task task' lease lease' htk hlid hupd _ hid hlid'
      hcby =>
    refine coherent_set hcoh hgrw (get?_set _ _ · _) (get?_set _ _ · _)
      (fun p hp => .inl hp) (hid.trans (hcoh.taskIds htk))
      (hupd.leaseId_eq.trans (hcoh.leaseIds hupd.stored)) ?_
    intro id hid'
    rw [hlid'] at hid'
    cases hid'
    have hcl := (hcoh.rows htk leaseId hlid).1
    rw [hid]
    refine ⟨hcl, lease', get?_set_self .., ?_⟩
    rw [hcby, hupd.holder_eq]
  | @dropped leaseId lease lease' hupd =>
    refine ⟨hcoh.taskIds, fun htk => (hcoh.rows htk).mono hgrw, ?_, ?_, hcoh.claimedOnce⟩
    · intro id stored hget
      rw [get?_set] at hget
      split at hget
      · cases hget
        rename_i heq
        rw [heq, hupd.leaseId_eq, hcoh.leaseIds hupd.stored]
      · exact hcoh.leaseIds hget
    · intro taskId id hcl
      obtain ⟨stored, hget⟩ := hcoh.claimed hcl
      obtain ⟨after, haft, -⟩ := hgrw.leases hget
      exact ⟨after, haft⟩
  | @taken taskId task task' lease htk hno hfr hid hlid hcby =>
    refine coherent_set hcoh hgrw (get?_set _ _ · _) (get?_set _ _ · _) ?_
      (hid.trans (hcoh.taskIds htk)) rfl ?_
    · intro p hp
      rcases mem_append.mp hp with hold | hnew
      · exact .inl hold
      · exact .inr ⟨mem_singleton.mp hnew, hfr⟩
    · intro id hid'
      rw [hlid] at hid'
      cases hid'
      rw [hid, hcoh.taskIds htk]
      exact ⟨by simp, lease, get?_set_self .., hcby⟩

/-- A live lease of the store after a lease was replaced by a released or renewed one:
the new lease, or a lease that was live before. -/
theorem live_set {tasks : Dict String TaskRecord} {id : String}
    (h : Live { store with tasks := tasks, leases := store.leases.set leaseId lease' } cl
      taskId id lease) :
    id = leaseId ∧ lease = lease' ∧ (taskId, leaseId) ∈ store.claims ∨
      id ≠ leaseId ∧ store.Live cl taskId id lease := by
  obtain ⟨hcl, hg, ho, hexp⟩ := h
  by_cases hid : id = leaseId
  · subst hid
    rw [get?_set_self] at hg
    cases hg
    exact .inl ⟨rfl, rfl, hcl⟩
  · rw [get?_set_of_ne _ _ hid] at hg
    exact .inr ⟨hid, hcl, hg, ho, hexp⟩

/-- The row of a task whose live lease is not the one that the row of `taskId` names is
another row, and stays. -/
theorem get?_set_of_live (hex : store.Exclusive cl) {taskId' id : String} {task : TaskRecord}
    (ht : store.tasks.get? taskId = some task)
    (ho : ∀ named, task.leaseId = some named → id ≠ named) (hl : store.Live cl taskId' id lease) :
    ∃ row, store.tasks.get? taskId' = some row ∧
      (store.tasks.set taskId task').get? taskId' = some row ∧ row.leaseId = some id ∧
      row.claimedBy = some lease.holder := by
  obtain ⟨row, hr, hn, hcby⟩ := hex.referenced hl
  have hne : taskId' ≠ taskId := by
    rintro rfl
    rw [ht] at hr
    cases hr
    exact ho id hn rfl
  exact ⟨row, hr, (get?_set_of_ne _ _ hne).trans hr, hn, hcby⟩

theorem LeaseUpdate.ne (h : LeaseUpdate store leaseId lease lease')
    (hm : some lease.holder = a ∨ lease.expiresAt ≤ cl) {id : String} {live : LeaseRecord}
    (hl : store.Live cl taskId id live) (hf : some live.holder ≠ a) : id ≠ leaseId := by
  rintro rfl
  obtain ⟨-, hg, -, hexp⟩ := hl
  rw [h.stored] at hg
  cases hg
  rcases hm with ho | hep
  · exact hf ho
  · omega

theorem respects_set (hex : store.Exclusive cl) {task : TaskRecord}
    {claims : List (String × String)} (ht : store.tasks.get? taskId = some task)
    (hnam : ∀ named, task.leaseId = some named → named = leaseId)
    (hne : ∀ {taskId' id live}, store.Live cl taskId' id live → some live.holder ≠ a →
      id ≠ leaseId) :
    Respects a cl store
      { tasks := store.tasks.set taskId task', leases := store.leases.set leaseId lease'
        claims } := by
  intro taskId' id live hl hf
  have hid := hne hl hf
  obtain ⟨row, hrow, hrow', hrow'', -⟩ :=
    get?_set_of_live hex ht (fun named hn => hnam named hn ▸ hid) hl
  exact ⟨(get?_set_of_ne _ _ hid).trans hl.2.1, row, row, hrow, hrow', hrow'', fun hr => hr⟩

/-- **Fenced transactions keep the leases exclusive** and respect those of others. -/
theorem Fenced.exclusive (h : Fenced cl a store store') (hcoh : store.Coherent)
    (hex : store.Exclusive cl) :
    store'.Exclusive cl ∧ Respects a cl store store' := by
  cases h with
  | @ended taskId leaseId task task' lease lease' htk hlid hupd hrel hmay =>
    refine ⟨.of_referenced fun {taskId' id live} hlv => ?_,
      respects_set hex htk (by simp [hlid]) (hupd.ne hmay)⟩
    rcases live_set hlv with ⟨-, rfl, -⟩ | ⟨hne, hbef⟩
    · rw [hlv.2.2.1] at hrel
      cases hrel
    · obtain ⟨row, -, hrow, hnam⟩ := get?_set_of_live hex htk (by simp [hlid, hne]) hbef
      exact ⟨row, hrow, hnam⟩
  | @renewed taskId leaseId task task' lease lease' htk hlid hupd hmay hid hlid'
      hcby =>
    refine ⟨.of_referenced fun {taskId' id live} hlv => ?_,
      respects_set hex htk (by simp [hlid]) (hupd.ne (.inl hmay))⟩
    rcases live_set hlv with ⟨rfl, rfl, hcl⟩ | ⟨hne, hbef⟩
    · have hown := (hcoh.rows htk id hlid).1
      rw [hcoh.taskIds htk] at hown
      rw [hcoh.claimedOnce hcl hown]
      refine ⟨task', get?_set_self .., hlid', ?_⟩
      rw [hcby, hupd.holder_eq]
    · obtain ⟨row, -, hrow, hnam⟩ := get?_set_of_live hex htk (by simp [hlid, hne]) hbef
      exact ⟨row, hrow, hnam⟩
  | @dropped leaseId lease lease' hupd hrel hmay =>
    constructor
    · refine .of_referenced fun {taskId' id live} hlv => ?_
      rcases live_set hlv with ⟨-, rfl, -⟩ | ⟨-, hbef⟩
      · rw [hlv.2.2.1] at hrel
        cases hrel
      · exact hex.referenced hbef
    · intro taskId' id live hlv hfor
      have hne := hupd.ne (.inl hmay) hlv hfor
      obtain ⟨row, hrow, hnam, -⟩ := hex.referenced hlv
      exact ⟨(get?_set_of_ne _ _ hne).trans hlv.2.1, row, row, hrow, hrow, hnam,
        fun hrd => hrd⟩
  | @taken taskId task task' lease htk hno hfr hid hlid hcby =>
    refine ⟨.of_referenced fun {taskId' id live} hlv => ?_,
      respects_set hex htk (by simp [hno]) fun hlv _ heq => ?_⟩
    · obtain ⟨hcl, hget, hop, hexp⟩ := hlv
      by_cases hnew : id = lease.leaseId
      · subst hnew
        rw [get?_set_self] at hget
        cases hget
        rcases mem_append.mp hcl with hold | hls
        · obtain ⟨stored, hst⟩ := hcoh.claimed hold
          rw [hfr] at hst
          cases hst
        · cases mem_singleton.mp hls
          exact ⟨task', get?_set_self .., hlid, hcby⟩
      · rw [get?_set_of_ne _ _ hnew] at hget
        have hold : (taskId', id) ∈ store.claims := by
          rcases mem_append.mp hcl with hold | hls
          · exact hold
          · cases mem_singleton.mp hls
            exact absurd rfl hnew
        obtain ⟨row, -, hrow, hnam⟩ :=
          get?_set_of_live hex htk (by simp [hno]) ⟨hold, hget, hop, hexp⟩
        exact ⟨row, hrow, hnam⟩
    · have hget := hlv.2.1
      rw [heq, hfr] at hget
      cases hget

end Fenced

/-! ### Writing a whole row -/

/-- The row that is written keeps the live lease of its task, and does not make ready a
task that another agent holds. -/
def Keeps (actor : Option String) (clock : ℤ) (store : Store) (task : TaskRecord) : Prop :=
  ∀ ⦃leaseId lease⦄, store.Live clock task.taskId leaseId lease →
    task.leaseId = some leaseId ∧ (some lease.holder ≠ actor → task.status = .ready →
      ∃ row, store.tasks.get? task.taskId = some row ∧ row.status = .ready)

section Write

variable {cc : ℤ} {ac : Option String} {st : Store} {task : TaskRecord}

theorem upsertTask_grows (s : Store) (task : TaskRecord) : s.Grows (s.upsertTask task) where
  claims := List.Subset.refl _
  leases := fun h => ⟨_, h, rfl, fun hr => hr⟩

theorem live_upsertTask {t l : String} {lease : LeaseRecord} :
    (st.upsertTask task).Live cc t l lease ↔ st.Live cc t l lease :=
  Iff.rfl

theorem get?_upsertTask (s : Store) (task : TaskRecord) (taskId : String) :
    (s.upsertTask task).tasks.get? taskId =
      if taskId = task.taskId then some task else s.tasks.get? taskId :=
  get?_set ..

theorem upsertTask_coherent (hcoh : st.Coherent) (hr : st.RowSound task) :
    (st.upsertTask task).Coherent where
  taskIds := by
    intro taskId row hg
    rw [get?_upsertTask] at hg
    split at hg
    · cases hg
      rename_i heq
      exact heq.symm
    · exact hcoh.taskIds hg
  rows := by
    intro taskId row hg
    rw [get?_upsertTask] at hg
    split at hg
    · cases hg
      exact hr
    · exact hcoh.rows hg
  leaseIds := hcoh.leaseIds
  claimed := hcoh.claimed
  claimedOnce := hcoh.claimedOnce

theorem upsertTask_exclusive (hex : st.Exclusive cc) (hrow : st.RowSound task)
    (hk : Keeps ac cc st task) :
    (st.upsertTask task).Exclusive cc ∧ Respects ac cc st (st.upsertTask task) := by
  constructor
  · refine .of_referenced fun {taskId leaseId lease} hl => ?_
    rw [live_upsertTask] at hl
    by_cases hid : taskId = task.taskId
    · subst hid
      have hlid := (hk hl).1
      obtain ⟨-, stored, hst, hcby⟩ := hrow leaseId hlid
      rw [hl.2.1] at hst
      cases hst
      exact ⟨task, (get?_upsertTask ..).trans (if_pos rfl), hlid, hcby⟩
    · obtain ⟨row, hget, hnam⟩ := hex.referenced hl
      exact ⟨row, (get?_upsertTask ..).trans ((if_neg hid).trans hget), hnam⟩
  · intro taskId leaseId lease hl hfor
    obtain ⟨row, hget, hnam, -⟩ := hex.referenced hl
    refine ⟨hl.2.1, ?_⟩
    by_cases hid : taskId = task.taskId
    · subst hid
      obtain ⟨hlid, hr⟩ := hk hl
      refine ⟨row, task, hget, (get?_upsertTask ..).trans (if_pos rfl), hlid, ?_⟩
      intro hs
      obtain ⟨row', hget', hs'⟩ := hr hfor hs
      rw [hget] at hget'
      cases hget'
      exact hs'
    · exact ⟨row, row, hget, (get?_upsertTask ..).trans ((if_neg hid).trans hget), hnam,
        fun hr => hr⟩

/-- What `upsert_synced_task` writes: nothing, or a sound row that keeps the live lease. -/
theorem upsertSyncedTask_cases (hcoh : st.Coherent) (hrow : st.RowSound task)
    (r : Bool) (e : Option (TaskStatus × Option String)) :
    (st.upsertSyncedTask task r e).store = st ∨
      ∃ row, (st.upsertSyncedTask task r e).store = st.upsertTask row ∧ st.RowSound row ∧
        (st.Exclusive cc → Keeps none cc st row) := by
  unfold Store.upsertSyncedTask
  cases hget : st.tasks.get? task.taskId with
  | none =>
    dsimp only
    split
    · exact .inl rfl
    · refine .inr ⟨task, rfl, hrow, fun hex leaseId lease hlv => ?_⟩
      obtain ⟨row, hrow', -⟩ := hex.referenced hlv
      rw [hget] at hrow'
      cases hrow'
  | some ex =>
    have hid : ex.taskId = task.taskId := hcoh.taskIds hget
    refine .inr ⟨(persistedTask ex task r e).1, rfl, ?_, ?_⟩
    · intro leaseId hlid
      rw [persistedTask_taskId]
      rcases persistedTask_lease ex task r e with hold | hnew
      · obtain ⟨hl, hc⟩ := Prod.mk.inj hold
        rw [hc, ← hid]
        exact hcoh.rows hget leaseId (hl ▸ hlid)
      · obtain ⟨hl, hc⟩ := Prod.mk.inj hnew
        rw [hc]
        exact hrow leaseId (hl ▸ hlid)
    · intro hex leaseId lease hlv
      rw [persistedTask_taskId] at hlv
      obtain ⟨row, hget', hlid, -⟩ := hex.referenced hlv
      rw [hget] at hget'
      cases hget'
      have hls : ex.leaseId.isSome := by rw [hlid, Option.isSome_some]
      obtain ⟨hl, -, hst⟩ := persistedTask_of_leased hls task r e
      refine ⟨hl.trans hlid, fun _ hrd => ⟨ex, ?_, hst ▸ hrd⟩⟩
      rw [persistedTask_taskId]
      exact hget

end Write

end AgenticPkm.Dispatcher
