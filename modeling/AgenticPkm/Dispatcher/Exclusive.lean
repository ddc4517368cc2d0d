import AgenticPkm.Dispatcher.Fenced
import AgenticPkm.Dispatcher.System

/-!
# Exclusive leases

`claim`, `heartbeat`, `complete`, the reclamation of a lease and the sync are fenced.
`release`, `block` and `unblock` write back a row they read earlier: they keep the leases
exclusive exactly when the row still carries the lease they read, and `unblock` only when
it does not make ready a task that another agent holds.

* `leases_exclusive_iff` — **leases are exclusive exactly along careful steps**.
* `leases_on_record` — what holds of leases in every run.
-/

namespace AgenticPkm.Dispatcher

open Store Option List

/-! ### The operations are fenced -/

section Operations

variable {clock now : ℤ} {store store' : Store} {ti : String}

theorem leasedTask_eq_ok {m leaseId : String} {task : TaskRecord}
    (h : leasedTask store ti m = .ok (task, leaseId)) :
    store.tasks.get? ti = some task ∧ task.leaseId = some leaseId := by
  simp only [leasedTask, bind_eq_ok_iff, getOrRaise_eq_ok_iff, pure_eq_ok_iff] at h
  obtain ⟨_, ht, _, hl, heq⟩ := h
  cases heq
  exact ⟨ht, hl⟩

theorem heartbeat_fenced {agentId : String} (h : heartbeat store now ti agentId = .ok store') :
    Fenced clock (some agentId) store store' := by
  simp only [heartbeat, bind_eq_ok_iff, exists_unit_iff, raiseIf_eq_ok_iff, pure_eq_ok_iff,
    getLease, getOrRaise_eq_ok_iff, Prod.exists] at h
  obtain ⟨task, l, ht, lease, hls, hh, _, hcby, rfl⟩ := h
  obtain ⟨htk, hl⟩ := leasedTask_eq_ok ht
  have ha : lease.holder = agentId := by simpa using hh
  have hcl : task.claimedBy = some agentId := by simpa using hcby
  refine .renewed htk hl ⟨hls, rfl, rfl, fun hr => hr⟩ ?_ rfl hl ?_
  · rw [ha]
  · rw [ha]
    exact hcl

theorem complete_fenced {actor : String} {e : Option String}
    (h : complete store now ti actor e = .ok store') : Fenced clock (some actor) store store' := by
  simp only [complete, bind_eq_ok_iff, exists_unit_iff, raiseIf_eq_ok_iff, pure_eq_ok_iff,
    getLease, getOrRaise_eq_ok_iff, Prod.exists] at h
  obtain ⟨_, l, ht, -, lease, hls, hh, -, -, rfl⟩ := h
  obtain ⟨htk, hl⟩ := leasedTask_eq_ok ht
  have ha : lease.holder = actor := by simpa using hh
  exact .ended htk hl ⟨hls, rfl, rfl, fun _ => rfl⟩ rfl (.inl (by rw [ha])) rfl
    rfl

theorem reclaimOne_fenced (a : Option String) (t l : String) :
    reclaimOne store clock t l = store ∨ Fenced clock a store (reclaimOne store clock t l) := by
  unfold reclaimOne
  cases ht : store.tasks.get? t with
  | none => exact .inl rfl
  | some =>
    dsimp only
    split
    · exact .inl rfl
    · rename_i hl
      cases hls : store.leases.get? l with
      | none => exact .inl rfl
      | some lease =>
        dsimp only
        split
        · exact .inl rfl
        · rename_i ho
          have hexp : lease.expiresAt ≤ clock := by
            simp only [Bool.or_eq_true, decide_eq_true_eq, not_or, not_le] at ho
            omega
          exact .inr (.ended ht (not_not.mp hl) ⟨hls, rfl, rfl, fun _ => rfl⟩ rfl
            (.inr hexp) rfl rfl)

theorem claim_fenced {r : ClaimRequest} (h : claim store clock r = .ok store') :
    Relation.ReflTransGen (Fenced clock (some r.agentId)) store store' := by
  simp only [claim, bind_eq_ok_iff, exists_unit_iff, raiseIf_eq_ok_iff, pure_eq_ok_iff,
    getOrRaise_eq_ok_iff] at h
  obtain ⟨-, task, ht, -, -, leases, hlss, hf, rfl⟩ := h
  have hn : leases.get? r.leaseId = none := by simpa using hf
  unfold freedLeases at hlss
  cases hl : task.leaseId with
  | none =>
    simp only [hl, bind_eq_ok_iff, exists_unit_iff, raiseIf_eq_ok_iff, pure_eq_ok_iff] at hlss
    obtain ⟨-, rfl⟩ := hlss
    have hls : store.leases.get? (claimedLease clock r task).leaseId = none := hn
    exact .single (.taken ht hl hls rfl rfl rfl)
  | some e =>
    simp only [hl, bind_eq_ok_iff, exists_unit_iff, raiseIf_eq_ok_iff, pure_eq_ok_iff,
      getOrRaise_eq_ok_iff] at hlss
    obtain ⟨lease, hls, hexp, -, -, rfl⟩ := hlss
    have hp : lease.expiresAt ≤ clock := by
      simp only [Bool.not_eq_false', Bool.and_eq_true, decide_eq_true_eq] at hexp
      exact hexp.2
    -- the expired lease ends first, and the row is overwritten at once
    let ended : Store :=
      { store with
        tasks := store.tasks.set r.taskId { task with leaseId := none }
        leases := store.leases.set e
          { lease with releasedAt := some clock, releaseReason := some "stale_takeover" } }
    have hend : Fenced clock (some r.agentId) store ended :=
      .ended ht hl ⟨hls, rfl, rfl, fun _ => rfl⟩ rfl (.inr hp) rfl rfl
    have hrow : ended.tasks.get? r.taskId = some { task with leaseId := none } :=
      Dict.get?_set_self ..
    have hu : ended.leases.get? (claimedLease clock r task).leaseId = none := hn
    have ht' : (claimedTask clock r task).taskId = task.taskId := rfl
    have htak : Fenced clock (some r.agentId) ended _ := .taken hrow rfl hu ht' rfl rfl
    rw [Dict.set_set] at htak
    exact .tail (.single hend) htak

end Operations

/-! ### The effect of a step -/

/-- The effect of a step on behalf of `actor`: the store stays coherent, and its leases
stay exclusive if the step meets the condition `careful`. -/
structure Effect (careful : Prop) (clock : ℤ) (actor : Option String) (store store' : Store) :
    Prop where
  grows : store.Grows store'
  coherent : store'.Coherent
  exclusive : store.Exclusive clock → careful →
    store'.Exclusive clock ∧ Respects actor clock store store'

section Effect

variable {cr : Prop} {cl : ℤ} {a : Option String} {store store' store'' : Store}

theorem Respects.refl (hex : store.Exclusive cl) : Respects a cl store store := by
  intro taskId l lease hlv _
  obtain ⟨task, ht, hl, -⟩ := hex.referenced hlv
  exact ⟨hlv.2.1, task, task, ht, ht, hl, fun hr => hr⟩

theorem Respects.trans (hg : store.Grows store') (h : Respects a cl store store')
    (h' : Respects a cl store' store'') : Respects a cl store store'' := by
  intro taskId l lease hl hf
  obtain ⟨hls, task, _, ht, ht', -, hrd⟩ := h hl hf
  have hl' : store'.Live cl taskId l lease := ⟨hg.claims hl.1, hls, hl.2.2⟩
  obtain ⟨hls', _, task'', hm, ht'', hlid, hrd'⟩ := h' hl' hf
  rw [ht'] at hm
  cases hm
  exact ⟨hls', task, task'', ht, ht'', hlid, fun hr => hrd (hrd' hr)⟩

theorem Effect.same (hcoh : store.Coherent) : Effect cr cl a store store where
  grows := .refl store
  coherent := hcoh
  exclusive := fun hex _ => ⟨hex, Respects.refl hex⟩

theorem Effect.fenced (hcoh : store.Coherent) (h : Relation.ReflTransGen (Fenced cl a) store store')
    : Effect cr cl a store store' := by
  induction h with
  | refl => exact .same hcoh
  | tail _ hl ih =>
    refine ⟨ih.grows.trans hl.grows, hl.coherent ih.coherent, fun hex hcr => ?_⟩
    obtain ⟨hm, hr⟩ := ih.exclusive hex hcr
    obtain ⟨hend, hr'⟩ := hl.exclusive ih.coherent hm
    exact ⟨hend, Respects.trans ih.grows hr hr'⟩

theorem Effect.written {task : TaskRecord} (hcoh : store.Coherent) (hr : store.RowSound task)
    (hk : store.Exclusive cl → cr → Keeps a cl store task) :
    Effect cr cl a store (store.upsertTask task) where
  grows := upsertTask_grows store task
  coherent := upsertTask_coherent hcoh hr
  exclusive := fun hex hcr => upsertTask_exclusive hex hr (hk hex hcr)

theorem Effect.synced {task : TaskRecord} (hcoh : store.Coherent) (hr : store.RowSound task)
    (r : Bool) (e : Option (TaskStatus × Option String)) :
    Effect cr cl none store (store.upsertSyncedTask task r e).store := by
  rcases upsertSyncedTask_cases hcoh hr r e with
    hsame | ⟨row, hwr, hs, hk⟩
  · rw [hsame]
    exact .same hcoh
  · rw [hwr]
    exact .written hcoh hs fun hex _ => hk hex

theorem Effect.toOption (hcoh : store.Coherent) {r : Except String Store}
    (h : ∀ {after}, r = .ok after → Effect cr cl a store after) :
    Effect cr cl a store (r.toOption.getD store) := by
  cases r with
  | error => exact .same hcoh
  | ok => exact h rfl

end Effect

/-! ### Operations that have begun -/

namespace Pending

/-- What an operation has read is a sound row, and a lease with the holder it has. -/
def Sound (store : Store) : Pending → Prop
  | .releaseRead task leaseId _ _ => store.RowSound task ∧ task.leaseId = some leaseId
  | .releaseLease task lease agentId _ _ =>
      task.leaseId = some lease.leaseId ∧ lease.holder = agentId ∧
        ∃ stored, store.leases.get? lease.leaseId = some stored ∧ stored.holder = lease.holder
  | .releaseTask task _ _ =>
      ∃ leaseId stored, task.leaseId = some leaseId ∧
        store.leases.get? leaseId = some stored ∧ stored.isReleased = true
  | .block task _ _ => store.RowSound task
  | .unblock task _ => store.RowSound task
  | .reconcile task _ _ => store.RowSound task
  | _ => True

variable {p : Pending}

theorem Sound.mono {store store' : Store} (hg : store.Grows store') (h : p.Sound store) :
    p.Sound store' := by
  cases p with
  | releaseRead => exact ⟨h.1.mono hg, h.2⟩
  | releaseLease =>
    obtain ⟨hl, ha, stored, hs, hh⟩ := h
    obtain ⟨stored', hs', hh', -⟩ := hg.leases hs
    exact ⟨hl, ha, stored', hs', hh'.trans hh⟩
  | releaseTask =>
    obtain ⟨l, stored, hl, hs, hr⟩ := h
    obtain ⟨stored', hs', -, hr'⟩ := hg.leases hs
    exact ⟨l, stored', hl, hs', hr' hr⟩
  | block task r actor | unblock task actor | reconcile task status blockedReason =>
    exact RowSound.mono hg h
  | _ => trivial

/-- If the task has a live lease, its row still names the lease that the operation read. -/
def NotStale (store : Store) (clock : ℤ) (task : TaskRecord) : Prop :=
  ∀ ⦃leaseId lease⦄, store.Live clock task.taskId leaseId lease →
    ∃ row, store.tasks.get? task.taskId = some row ∧ row.leaseId = task.leaseId

/-- Writing back the row that was read loses no live lease.  `unblock` must also leave a
task alone that another agent holds, unless its row is ready already or was neither
blocked nor ready when it was read. -/
def Careful (store : Store) (clock : ℤ) : Pending → Prop
  | .releaseTask task _ _ => NotStale store clock task
  | .block task _ _ => NotStale store clock task
  | .unblock task actor => NotStale store clock task ∧
      ∀ ⦃leaseId lease⦄, store.Live clock task.taskId leaseId lease → lease.holder ≠ actor →
        task.status = .blocked ∨ task.status = .ready →
          ∃ row, store.tasks.get? task.taskId = some row ∧ row.status = .ready
  | _ => True

variable {store : Store} {cc : ℤ} {task : TaskRecord}

theorem NotStale.leaseId_eq (h : NotStale store cc task) (hex : store.Exclusive cc)
    {leaseId : String} {l : LeaseRecord}
    (hlv : store.Live cc task.taskId leaseId l) : task.leaseId = some leaseId := by
  obtain ⟨_, hr, hsame⟩ := h hlv
  obtain ⟨_, hr', hl, -⟩ := hex.referenced hlv
  rw [hr] at hr'
  cases hr'
  rw [← hsame, hl]

theorem unblockedTask_status_eq_ready :
    (unblockedTask task).status = .ready ↔ task.status = .blocked ∨ task.status = .ready := by
  unfold unblockedTask
  dsimp only
  split
  · rename_i hb
    simp [hb]
  · rename_i hb
    simp [hb]

/-- **The next step of an operation that has begun.** -/
theorem next_effect (c : ℤ) (hcoh : store.Coherent) (hp : p.Sound store) :
    Effect (p.Careful store c) c p.actor store (p.next store c).1 := by
  cases p with
  | heartbeat => exact .toOption hcoh fun h => .fenced hcoh (.single (heartbeat_fenced h))
  | complete => exact .toOption hcoh fun h => .fenced hcoh (.single (complete_fenced h))
  | releaseRead => exact .same hcoh
  | releaseLease _ lease =>
    obtain ⟨hlid, hag, stored, hst, hhl⟩ := hp
    have hid : lease.leaseId = stored.leaseId := (hcoh.leaseIds hst).symm
    refine .fenced hcoh (.single (.dropped ⟨hst, hid, hhl.symm, fun _ => rfl⟩ rfl ?_))
    rw [hhl, hag]
    rfl
  | releaseTask =>
    refine .written hcoh (.of_leaseId_none rfl) fun hex hcr => ?_
    -- the lease that was read is released, so no live lease is left
    intro l lease hlv
    obtain ⟨_, stored, hlid, hst, hrel⟩ := hp
    have hsame := NotStale.leaseId_eq hcr hex hlv
    rw [hlid] at hsame
    cases hsame
    obtain ⟨-, hget, hop, -⟩ := hlv
    rw [hst] at hget
    cases hget
    rw [hrel] at hop
    cases hop
  | block =>
    refine .written hcoh hp fun hex hcr => ?_
    intro l lease hlv
    exact ⟨NotStale.leaseId_eq hcr hex hlv, fun _ hrd => by cases hrd⟩
  | unblock _ actor =>
    refine .written hcoh hp fun hex hcr => ?_
    intro l lease hlv
    refine ⟨NotStale.leaseId_eq hcr.1 hex hlv, fun hfor hrd => ?_⟩
    have hoth : lease.holder ≠ actor := fun heq => hfor (by rw [heq]; rfl)
    exact hcr.2 hlv hoth (unblockedTask_status_eq_ready.mp hrd)
  | reconcile task status blockedReason =>
    have hrow : store.RowSound { task with status := status, blockedReason := blockedReason } := hp
    exact .synced hcoh hrow false _
  | reclaim o actor =>
    cases o with
    | nil => exact .same hcoh
    | cons pair =>
      obtain ⟨taskId, l⟩ := pair
      rcases reclaimOne_fenced (some actor) taskId l with hsame | hfn
      · have heq : reclaimOne store c taskId l = store := hsame
        show Effect _ _ _ _ (reclaimOne store c taskId l)
        rw [heq]
        exact .same hcoh
      · exact .fenced hcoh (.single hfn)

theorem next_sound (hcoh : store.Coherent) {q : Pending} (hp : p.Sound store)
    (hq : (p.next store cc).2 = some q) : q.Sound (p.next store cc).1 := by
  cases p with
  | releaseRead _ l a =>
    obtain ⟨lease, hck, rfl⟩ := map_eq_some_iff.mp hq
    obtain ⟨_, hl⟩ := hp
    have hok : checkRelease store l a = .ok lease := by
      cases hr : checkRelease store l a with
      | error => simp [hr, Except.toOption] at hck
      | ok => simpa [hr, Except.toOption] using hck
    simp only [checkRelease, getLease, bind_eq_ok_iff, exists_unit_iff, raiseIf_eq_ok_iff,
      pure_eq_ok_iff, getOrRaise_eq_ok_iff] at hok
    obtain ⟨stored, hs, hh, rfl⟩ := hok
    have hid := hcoh.leaseIds hs
    refine ⟨by rw [hl, hid], by simpa using hh, stored, ?_, rfl⟩
    rw [hid]
    exact hs
  | releaseLease _ lease =>
    cases hq
    exact ⟨lease.leaseId, _, hp.1, Dict.get?_set_self .., rfl⟩
  | reclaim o =>
    cases o with
    | nil => cases hq
    | cons =>
      cases hq
      trivial
  | _ => cases hq

end Pending

/-! ### Every run -/

namespace System

variable {sys : System} {move : Move}

/-- The store is coherent, and what the operations have read is sound. -/
structure Sound (sys : System) : Prop where
  coherent : sys.store.Coherent
  pending : ∀ p ∈ sys.pending, p.Sound sys.store

/-- The step does not write back a stale row over a live lease. -/
def Careful (sys : System) : Move → Prop
  | .resume i => ∀ p ∈ sys.pending[i]?, p.Careful sys.store sys.clock
  | _ => True

theorem effect (hs : sys.Sound) (move : Move) :
    Effect (sys.Careful move) sys.clock (sys.actor move) sys.store (sys.storeAfter move) := by
  cases move with
  | claim => exact .toOption hs.coherent fun h => .fenced hs.coherent (claim_fenced h)
  | sync _ r => exact .synced hs.coherent (.of_leaseId_none rfl) r none
  | resume i =>
    unfold storeAfter actor Careful
    dsimp only
    cases hg : sys.pending[i]? with
    | none => exact .same hs.coherent
    | some p =>
      have hp := hs.pending p (mem_of_getElem? hg)
      have heff := p.next_effect sys.clock hs.coherent hp
      exact ⟨heff.grows, heff.coherent, fun hex hcr => heff.exclusive hex (hcr p rfl)⟩
  | wait => exact .same hs.coherent
  | begin => exact .same hs.coherent

theorem begin_sound {store : Store} {c : ℤ} (hcoh : store.Coherent) {call : Call}
    {p : Pending} (h : call.begin store c = some p) : p.Sound store := by
  cases call with
  | release taskId =>
    obtain ⟨target, htg, rfl⟩ := map_eq_some_iff.mp h
    have hok : releaseTarget store taskId = .ok target := by
      cases hr : releaseTarget store taskId with
      | error => simp [hr, Except.toOption] at htg
      | ok => simpa [hr, Except.toOption] using htg
    obtain ⟨ht, hl⟩ := leasedTask_eq_ok hok
    exact ⟨hcoh.rows ht, hl⟩
  | block taskId r actor | unblock taskId actor | reconcile taskId status blockedReason =>
    obtain ⟨_, ht, rfl⟩ := map_eq_some_iff.mp h
    exact hcoh.rows ht
  | _ =>
    cases h
    trivial

theorem Sound.step (hs : sys.Sound) (move : Move) : (sys.step move).Sound where
  coherent := (effect hs move).coherent
  pending := by
    intro p hp
    have ho : ∀ q ∈ sys.pending, q.Sound (sys.storeAfter move) :=
      fun q hq => (hs.pending q hq).mono (effect hs move).grows
    cases move with
    | begin =>
      rcases mem_append.mp hp with hb | hnew
      · exact ho p hb
      · exact begin_sound hs.coherent (mem_toList.mp hnew)
    | resume i =>
      simp only [System.step, pendingAfter] at hp
      cases hg : sys.pending[i]? with
      | none =>
        rw [hg] at hp
        exact ho p hp
      | some current =>
        have hcur := hs.pending current (mem_of_getElem? hg)
        have hst : sys.storeAfter (.resume i) = (current.next sys.store sys.clock).1 := by
          simp [storeAfter, hg]
        rw [hg] at hp
        cases hr : (current.next sys.store sys.clock).2 with
        | none =>
          simp only [hr] at hp
          exact ho p (mem_of_mem_eraseIdx hp)
        | some =>
          simp only [hr] at hp
          rcases mem_or_eq_of_mem_set hp with hb | rfl
          · exact ho p hb
          · show p.Sound (sys.storeAfter (.resume i))
            rw [hst]
            exact Pending.next_sound hs.coherent hcur hr
    | wait now | claim request | sync issue readyIssueObserved => exact ho p hp

/-- **Every system is sound.** -/
theorem sound_after (m : List Move) : (after m).Sound := by
  induction m using List.reverseRecOn with
  | nil => exact ⟨.empty, by simp [after]⟩
  | append_singleton m move ih =>
    rw [after_concat]
    exact ih.step move

theorem exclusive_of_le {s : Store} {clock clock' : ℤ} (hle : clock ≤ clock')
    (hex : s.Exclusive clock) : s.Exclusive clock' := by
  refine .of_referenced fun {taskId l lease} hl => ?_
  obtain ⟨hcl, hg, ho, hexp⟩ := hl
  exact hex.referenced ⟨hcl, hg, ho, lt_of_le_of_lt hle hexp⟩

def Exclusive (sys : System) : Prop := sys.store.Exclusive sys.clock

/-- The step respects the live leases of other agents. -/
def Respects (sys : System) (move : Move) : Prop :=
  Store.Respects (sys.actor move) sys.clock sys.store (sys.step move).store

/-- **A careful step keeps the leases exclusive** and respects those of others. -/
theorem exclusive_step (hs : sys.Sound) (hex : sys.Exclusive) (hcr : sys.Careful move) :
    (sys.step move).Exclusive ∧ sys.Respects move := by
  obtain ⟨hn, hr⟩ := (effect hs move).exclusive hex hcr
  refine ⟨exclusive_of_le ?_ hn, hr⟩
  cases move with
  | wait => exact le_max_left ..
  | _ => exact le_rfl

variable {i : ℕ}

theorem resume_written {p : Pending} (hg : sys.pending[i]? = some p) :
    (sys.step (.resume i)).store = (p.next sys.store sys.clock).1 := by
  simp [step, storeAfter, hg]

theorem written_names_lease {task : TaskRecord}
    (hwr : (sys.step (.resume i)).store = sys.store.upsertTask task)
    (hn : (sys.step (.resume i)).Exclusive) {leaseId : String} {lease : LeaseRecord}
    (hl : sys.store.Live sys.clock task.taskId leaseId lease) : task.leaseId = some leaseId := by
  have hl' : (sys.step (.resume i)).store.Live sys.clock task.taskId leaseId lease := by
    rw [hwr]
    exact hl
  obtain ⟨_, hr, hlid, -⟩ := hn.referenced hl'
  rw [hwr, get?_upsertTask, if_pos rfl] at hr
  cases hr
  exact hlid

/-- **A step after which the leases are exclusive was careful**, if it respects those of
others. -/
theorem careful_of_exclusive (hex : sys.Exclusive) (hnx : (sys.step move).Exclusive)
    (hrs : sys.Respects move) : sys.Careful move := by
  cases move with
  | resume i =>
    intro p hp
    have hst := resume_written hp
    cases p with
    | releaseTask task _ now =>
      intro leaseId lease hlv
      have hno : (releasedTask task now).leaseId = some leaseId := written_names_lease hst hnx hlv
      cases hno
    | block task =>
      intro leaseId lease hlv
      obtain ⟨row, hrow, hlid, -⟩ := hex.referenced hlv
      have hnam : task.leaseId = some leaseId := written_names_lease hst hnx hlv
      exact ⟨row, hrow, hlid.trans hnam.symm⟩
    | unblock task actor =>
      constructor
      · intro leaseId lease hlv
        obtain ⟨row, hrow, hlid, -⟩ := hex.referenced hlv
        have hnam : task.leaseId = some leaseId := written_names_lease hst hnx hlv
        exact ⟨row, hrow, hlid.trans hnam.symm⟩
      · intro leaseId lease hlv hoth hstat
        have hfor : some lease.holder ≠ sys.actor (.resume i) := by
          have hact : sys.actor (.resume i) = some actor := by
            simp [System.actor, mem_def.mp hp, Pending.actor]
          rw [hact]
          simpa using hoth
        obtain ⟨-, row, row', hrow, hrow', -, hrd⟩ := hrs hlv hfor
        have hwr : row' = unblockedTask task := by
          rw [hst] at hrow'
          exact (some_inj.mp
            (((get?_upsertTask ..).trans (if_pos rfl)).symm.trans hrow')).symm
        refine ⟨row, hrow, hrd ?_⟩
        rw [hwr]
        exact Pending.unblockedTask_status_eq_ready.mpr hstat
    | _ => trivial
  | _ => trivial

/-- **Leases are exclusive along a run exactly when all its steps are careful.**  For every
sequence of moves: each step is careful if and only if, at every moment, every task has at
most one live lease, referenced with its holder by the row of the task, and no step
releases, replaces or clears the live lease of an agent it does not act for, or puts its
task back to ready. -/
theorem leases_exclusive_iff (moves : List Move) :
    (∀ before move, before ++ [move] <+: moves → (after before).Careful move) ↔
      (∀ before, before <+: moves → (after before).Exclusive) ∧
        ∀ before move, before ++ [move] <+: moves → (after before).Respects move := by
  constructor
  · intro hcr
    have hec : ∀ before, before <+: moves → (after before).Exclusive := by
      intro before
      induction before using List.reverseRecOn with
      | nil =>
        intro _
        exact .of_referenced fun hl => by cases hl.1
      | append_singleton before move ih =>
        intro hm
        rw [after_concat]
        have hb : before <+: moves := (prefix_append ..).trans hm
        exact (exclusive_step (sound_after before) (ih hb) (hcr before move hm)).1
    refine ⟨hec, fun before move hm => ?_⟩
    have hb : before <+: moves := (prefix_append ..).trans hm
    exact (exclusive_step (sound_after before) (hec before hb) (hcr before move hm)).2
  · rintro ⟨hec, hr⟩ before move hm
    have hb : before <+: moves := (prefix_append ..).trans hm
    have hn := hec (before ++ [move]) hm
    rw [after_concat] at hn
    exact careful_of_exclusive (hec before hb) hn (hr before move hm)

theorem grows_after (m more : List Move) : (after m).store.Grows (after (m ++ more)).store := by
  induction more using List.reverseRecOn with
  | nil =>
    rw [List.append_nil]
    exact .refl _
  | append_singleton more move ih =>
    rw [← List.append_assoc, after_concat]
    exact ih.trans (effect (sound_after _) move).grows

/-- **What is on record about leases is never contradicted**, not even by the stale writes that
break exclusivity: a row names a lease that was claimed for its task and for no other, by the
agent that the row names, and from then on the lease has this holder and stays released once it
is. -/
theorem leases_on_record (m more : List Move) {taskId leaseId : String} {task : TaskRecord}
    (ht : (after m).store.tasks.get? taskId = some task) (hl : task.leaseId = some leaseId) :
    (∀ other, (other, leaseId) ∈ (after (m ++ more)).store.claims ↔ other = taskId) ∧
    ∃ lease lease', (after m).store.leases.get? leaseId = some lease ∧
      (after (m ++ more)).store.leases.get? leaseId = some lease' ∧
      task.claimedBy = some lease.holder ∧ lease'.holder = lease.holder ∧
      (lease.isReleased = true → lease'.isReleased = true) := by
  have hcoh := (sound_after m).coherent
  have hg := grows_after m more
  obtain ⟨hc, lease, hls, hby⟩ := hcoh.rows ht leaseId hl
  rw [hcoh.taskIds ht] at hc
  obtain ⟨lease', hls', hh, hr⟩ := hg.leases hls
  refine ⟨fun other => ⟨fun ho => ?_, ?_⟩, lease, lease', hls, hls', hby, hh, hr⟩
  · exact (sound_after (m ++ more)).coherent.claimedOnce ho (hg.claims hc)
  · rintro rfl
    exact hg.claims hc

end System

namespace Sample

/-- One agent reads a ready task in order to block it; another one claims the task; then
the first one writes the row it read, unblocks the task, and a third agent claims it. -/
def staleBlock : List Move :=
  [.sync ⟨"task-1", 21, .ready, {}⟩ true,
   .begin (.block "task-1" "waiting for review" "blocker"),
   .claim ⟨"task-1", "agent-1", "lease-1", 90, false, none, false⟩,
   .resume 0,
   .begin (.unblock "task-1" "blocker"),
   .resume 0,
   .claim ⟨"task-1", "agent-2", "lease-2", 90, false, none, false⟩]

def lease (leaseId holder : String) : LeaseRecord where
  leaseId := leaseId
  resource := "issue:21"
  holder := holder
  ttlSeconds := 5400
  acquiredAt := 0
  expiresAt := 5400000000
  heartbeatAt := some 0

end Sample

/-- **A stale `block` leads to two live leases of one task.** -/
theorem stale_block_doubles_lease :
    (System.after Sample.staleBlock).store.Live 0 "task-1" "lease-1"
        (Sample.lease "lease-1" "agent-1") ∧
      (System.after Sample.staleBlock).store.Live 0 "task-1" "lease-2"
        (Sample.lease "lease-2" "agent-2") ∧
      ¬ (System.after Sample.staleBlock).Exclusive := by
  have hf : (System.after Sample.staleBlock).store.Live 0 "task-1" "lease-1"
      (Sample.lease "lease-1" "agent-1") := by
    unfold Store.Live
    decide +kernel
  have hs : (System.after Sample.staleBlock).store.Live 0 "task-1" "lease-2"
      (Sample.lease "lease-2" "agent-2") := by
    unfold Store.Live
    decide +kernel
  refine ⟨hf, hs, fun hex => ?_⟩
  have hsame : "lease-1" = "lease-2" := hex.unique hf hs
  exact absurd hsame (by decide)

theorem stale_block_keeps_record :
    ∃ lease, (System.after (Sample.staleBlock.take 3 ++ Sample.staleBlock.drop 3)).store.leases.get?
      "lease-1" = some lease ∧ lease.holder = "agent-1" := by
  have hrow : ((System.after (Sample.staleBlock.take 3)).store.tasks.get? "task-1").map
      (fun task => (task.leaseId, task.claimedBy)) = some (some "lease-1", some "agent-1") := by
    decide +kernel
  obtain ⟨task, ht, hl⟩ := Option.map_eq_some_iff.mp hrow
  obtain ⟨-, _, lease, -, hls, hby, hh, -⟩ := System.leases_on_record (Sample.staleBlock.take 3)
    (Sample.staleBlock.drop 3) ht (Prod.mk.inj hl).1
  rw [(Prod.mk.inj hl).2] at hby
  exact ⟨lease, hls, hh.trans (Option.some.inj hby).symm⟩

end AgenticPkm.Dispatcher
