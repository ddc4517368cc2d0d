import AgenticPkm.Dispatcher.Guards

/-!
# Cleanup and claims exclude each other

A guard that was reported is in its sidecar, with the expiry that was reported, until that
expiry has passed or the guard is released: the row of the metadata table is only a second
line.  A claim reads the sidecar while it holds the lock, so it does not get past a guard
whose reported expiry is still to come.  In the other direction a guard is taken under the
same lock, after the row of the task was found without a lease.

* `cleanup_and_claims_exclude` — **both directions, after any moves**.
-/

namespace AgenticPkm.Dispatcher

/-! ### Reading and writing -/

/-- Reading a record: the active guard is what the records then hold, it is one of this task,
and only a guard that has expired was removed. -/
structure GuardRead (records records' : Dict String CleanupGuard) (key taskId : String)
    (now : ℤ) (active : Option CleanupGuard) : Prop where
  get? : records'.get? key = active
  taskId_eq : ∀ guard ∈ active, guard.taskId = taskId
  kept : ∀ k guard, records.get? k = some guard → now < guard.expiresAt →
    records'.get? k = some guard

theorem guardRead_of_ok {r r' : Dict String CleanupGuard} {key t : String} {now : ℤ}
    {active : Option CleanupGuard} (h : readGuardRecord r key t now = .ok (active, r')) :
    GuardRead r r' key t now active := by
  unfold readGuardRecord at h
  cases hg : r.get? key with
  | none =>
    simp only [hg, pure_eq_ok_iff, Prod.mk.injEq] at h
    obtain ⟨rfl, rfl⟩ := h
    exact ⟨hg, by simp, fun _ _ hk _ => hk⟩
  | some =>
    simp only [hg, validatedCleanupGuard, bind_unit_eq_ok_iff, raiseIf_eq_ok_iff,
      Bool.or_eq_false_iff, bne_eq_false_iff_eq, pure_eq_ok_iff] at h
    obtain ⟨⟨⟨ht, -⟩, -⟩, hr⟩ := h
    split at hr
    · next hexp =>
      cases hr
      refine ⟨by simp, by simp, fun k o hk hl => ?_⟩
      have hne : k ≠ key := by
        rintro rfl
        rw [hg] at hk
        cases hk
        omega
      rw [Dict.get?_erase, if_neg hne, hk]
    · cases hr
      refine ⟨hg, fun o ho => ?_, fun _ _ hk _ => hk⟩
      cases ho
      exact ht

theorem Written.attempt_cases (d : Database) (files : Dict String CleanupGuard)
    (body : Except String (Database × Dict String CleanupGuard × Progress)) :
    (∃ msg, Written.attempt d files body = ⟨d, files, .error msg⟩) ∨
      ∃ d' files' progress, body = .ok (d', files', progress) ∧
        Written.attempt d files body = ⟨d', files', .ok progress⟩ := by
  cases body with
  | error msg => exact .inl ⟨msg, rfl⟩
  | ok result => exact .inr ⟨result.1, result.2.1, result.2.2, rfl, rfl⟩

theorem guarded_eq_false_of_claim {s s' : Store} {now : ℤ} {r : ClaimRequest}
    (h : claim s now r = .ok s') : r.guarded = false := by
  simp only [claim, bind_eq_ok_iff, exists_unit_iff, raiseIf_eq_ok_iff] at h
  obtain ⟨-, -, -, hg, -⟩ := h
  exact hg

theorem refuseHeld_eq_ok_iff {g : CleanupGuard} {held : Option CleanupGuard} :
    refuseHeld g held = .ok () ↔ held = none := by
  cases held with
  | none => simp [refuseHeld]
  | some =>
    simp only [refuseHeld, checkOption_some, reduceCtorEq, iff_false]
    split <;> simp

/-! ### What the holder of the lock knows -/

def Database.Unleased (database : Database) (taskId : String) : Prop :=
  ∀ tables, database = .tables tables →
    ∀ task, tables.store.tasks.get? taskId = some task → task.leaseId = none

/-- What the operation that holds the lock has read still stands. -/
def GuardOperation.Sound (digest : String → String) (database : Database)
    (files : Dict String CleanupGuard) : GuardOperation → Prop
  | .acquireRead guard _ fileExisting => files.get? (digest guard.taskId) = fileExisting
  | .acquireWrite guard =>
      files.get? (digest guard.taskId) = none ∧ database.Unleased guard.taskId
  | .refreshRead id _ _ fileGuard | .releaseRead id _ fileGuard =>
      files.get? (digest id.taskId) = fileGuard ∧ ∀ guard ∈ fileGuard, guard.taskId = id.taskId
  | .refreshWrite refreshed =>
      ∃ guard, files.get? (digest refreshed.taskId) = some guard ∧ guard.id = refreshed.id
  | .releaseRemove id => ∀ guard, files.get? (digest id.taskId) = some guard → guard.id = id
  | .claimCommit request _ fileGuard => files.get? (digest request.taskId) = fileGuard

/-- A reported guard that has not expired is in its sidecar. -/
def Backed (digest : String → String) (files : Dict String CleanupGuard) (clock : ℤ)
    (reports : List Report) : Prop :=
  ∀ id expiry, lastReported id reports = some expiry → clock < expiry →
    files.get? (digest id.taskId) = some (id.guard expiry)

namespace Host

structure Inv (digest : String → String) (host : Host) : Prop where
  backed : Backed digest host.files host.clock host.reports
  sound : ∀ operation ∈ host.holder, operation.Sound digest host.database host.files

variable {digest : String → String} {host : Host}

theorem inv_init : ({} : Host).Inv digest :=
  ⟨fun _ _ h => by simp [lastReported] at h, fun _ h => by simp at h⟩

/-! ### Quiet moves -/

variable {database database' : Database} {taskId : String} {files : Dict String CleanupGuard}
  {operation : GuardOperation} {clock now : ℤ} {reports : List Report} {guard : CleanupGuard}
  {report : Report}

theorem Unleased.initialised (h : database.Unleased taskId) :
    database.initialised.Unleased taskId := by
  intro tables htab task ht
  cases database with
  | absent | blank =>
    cases htab
    simp at ht
  | tables => exact h tables htab task ht

theorem Unleased.synced (h : database.Unleased taskId) (i : IssueSnapshot) (r : Bool) :
    (syncedDatabase database i r).Unleased taskId := by
  intro tables htab task ht
  cases database with
  | absent => cases htab
  | blank => cases htab
  | tables t =>
    cases htab
    have ho := h t rfl
    simp only [Store.upsertSyncedTask, Option.isSome_none, Bool.false_eq_true, if_false] at ht
    split at ht
    · simp only [Store.upsertTask, Dict.get?_set] at ht
      split at ht
      · cases ht
        rfl
      · exact ho task ht
    · next existing hes =>
      simp only [Store.upsertTask, Dict.get?_set, persistedTask_taskId] at ht
      split at ht
      · next heq =>
        cases ht
        subst heq
        have hn := ho existing hes
        rcases persistedTask_lease existing i.toTask r none with hl | hl
        · rw [(Prod.mk.inj hl).1, hn]
        · rw [(Prod.mk.inj hl).1]
          rfl
      · exact ho task ht

/-- The database matters only to a guard that is being acquired. -/
theorem sound_of_database (h : ∀ taskId, database.Unleased taskId → database'.Unleased taskId)
    (hs : operation.Sound digest database files) : operation.Sound digest database' files := by
  cases operation with
  | acquireWrite => exact ⟨hs.1, h _ hs.2⟩
  | _ => exact hs

/-! ### Steps that only read -/

theorem Backed.read {f' : Dict String CleanupGuard} {key : String}
    {a : Option CleanupGuard} (h : Backed digest f clock reports)
    (hr : GuardRead f f' key taskId clock a) : Backed digest f' clock reports :=
  fun id e hls hl => hr.kept _ _ (h id e hls hl) hl

theorem inv_record_of_goesOn {w : Written} (hb : Backed digest w.files host.clock host.reports)
    (hg : ∀ progress, w.outcome = .ok progress → ∃ operation,
      progress = .goesOn operation ∧ operation.Sound digest w.database w.files) :
    (host.record w).Inv digest := by
  obtain ⟨_, _, outcome⟩ := w
  cases outcome with
  | error => exact ⟨hb, fun _ hop => by simp [record] at hop⟩
  | ok progress =>
    obtain ⟨_, rfl, hs⟩ := hg progress rfl
    refine ⟨hb, fun other ho => ?_⟩
    cases ho
    exact hs

variable {body : Except String (Database × Dict String CleanupGuard × Progress)}
  {fileGuard : Option CleanupGuard}

theorem Inv.record_attempt (h : host.Inv digest) {d : Database}
    (hb : ∀ d' files progress, body = .ok (d', files, progress) →
      (host.record ⟨d', files, .ok progress⟩).Inv digest) :
    (host.record (.attempt d host.files body)).Inv digest := by
  rcases Written.attempt_cases d host.files body with
    ⟨msg, hr⟩ | ⟨d', files, progress, hok, hwr⟩
  · rw [hr]
    exact inv_record_of_goesOn h.backed (by simp)
  · rw [hwr]
    exact hb _ _ _ hok

theorem Inv.record_read (h : host.Inv digest) (d : Database) (t : String)
    (o : Option CleanupGuard → GuardOperation) (hb : ∀ result, body = .ok result → ∃ active files',
      readCleanupGuardFile digest host.files t host.clock = .ok (active, files') ∧
        result = (host.database, files', .goesOn (o active)))
    (hs : ∀ active files', files'.get? (digest t) = active →
      (∀ guard ∈ active, guard.taskId = t) → (o active).Sound digest host.database files') :
    (host.record (.attempt d host.files body)).Inv digest := by
  refine h.record_attempt fun d' files' p hok => ?_
  obtain ⟨active, files', hr, hres⟩ := hb _ hok
  cases hres
  have hg := guardRead_of_ok hr
  refine inv_record_of_goesOn (Backed.read h.backed hg) fun p hp => ?_
  cases hp
  exact ⟨_, rfl, hs active files' hg.get? hg.taskId_eq⟩

theorem read_of_ok {check : Except String Unit} {t : String}
    {o : Option CleanupGuard → GuardOperation}
    {result : Database × Dict String CleanupGuard × Progress} (h : (do
      check
      let (active, files) ← readCleanupGuardFile digest host.files t host.clock
      pure (host.database, files, Progress.goesOn (o active))) = .ok result) :
    ∃ active files, readCleanupGuardFile digest host.files t host.clock = .ok (active, files) ∧
      result = (host.database, files, .goesOn (o active)) := by
  simp only [bind_eq_ok_iff, exists_unit_iff, Prod.exists, pure_eq_ok_iff] at h
  obtain ⟨-, active, files, hr, rfl⟩ := h
  exact ⟨active, files, hr, rfl⟩

theorem Inv.begin (h : host.Inv digest) (r : GuardRequest) :
    (host.record (r.begin digest host.database host.files host.clock)).Inv digest := by
  cases r with
  | acquire taskId o tk t =>
    exact h.record_read host.database taskId
      (.acquireRead ⟨taskId, o, tk, expiresAt t host.clock⟩ host.clock)
      (fun _ hok => read_of_ok hok) fun active files hg _ => hg
  | refresh id t =>
    exact h.record_read host.database id.taskId (.refreshRead id t host.clock)
      (fun _ hok => read_of_ok hok) fun active files hg ht => ⟨hg, ht⟩
  | release id =>
    exact h.record_read host.database id.taskId (.releaseRead id host.clock)
      (fun _ hok => read_of_ok hok) fun active files hg ht => ⟨hg, ht⟩
  | claim r =>
    simp only [GuardRequest.begin]
    split
    · exact inv_record_of_goesOn h.backed (by simp)
    · refine h.record_read host.database.connected r.taskId
        (.claimCommit r host.clock) (fun result hok => ?_) fun active files hg _ => hg
      simp only [bind_eq_ok_iff, exists_unit_iff, Prod.exists, pure_eq_ok_iff] at hok
      obtain ⟨-, -, -, -, -, -, -, -, active, files, hr, rfl⟩ := hok
      exact ⟨active, files, hr, rfl⟩

/-! ### Steps that write -/

theorem Backed.write (h : Backed digest files clock reports)
    (hr : report = .acquired guard ∨ report = .refreshed guard)
    (hown : ∀ other, files.get? (digest guard.taskId) = some other → other.id = guard.id) :
    Backed digest (files.set (digest guard.taskId) guard) clock (report :: reports) := by
  intro id expiry hl hlv
  have hcas : (if guard.id = id then some guard.expiresAt else lastReported id reports) =
      some expiry := by
    rcases hr with rfl | rfl <;> exact hl
  split at hcas
  · next hid =>
    cases hcas
    subst hid
    exact Dict.get?_set_self ..
  · next hid =>
    have ho := h id expiry hcas hlv
    have hk : digest id.taskId ≠ digest guard.taskId := by
      intro hk
      rw [hk] at ho
      exact hid (hown _ ho).symm
    rw [Dict.get?_set_of_ne _ _ hk, ho]

theorem Backed.remove (h : Backed digest files clock reports) {id : GuardId}
    (hown : ∀ guard, files.get? (digest id.taskId) = some guard → guard.id = id) :
    Backed digest (files.erase (digest id.taskId)) clock (.released id :: reports) := by
  intro o e hl hlv
  simp only [lastReported] at hl
  split at hl
  · cases hl
  · next hid =>
    have ho := h o e hl hlv
    have hk : digest o.taskId ≠ digest id.taskId := by
      intro hk
      rw [hk] at ho
      exact hid (hown _ ho).symm
    rw [Dict.get?_erase, if_neg hk, ho]

theorem unleased_of_acquireInDatabase {f : Option CleanupGuard}
    (h : acquireInDatabase database guard now f = .ok database') :
    f = none ∧ database'.Unleased guard.taskId := by
  simp only [acquireInDatabase, bind_eq_ok_iff, exists_unit_iff, Prod.exists, raiseIf_eq_ok_iff,
    refuseHeld_eq_ok_iff, pure_eq_ok_iff] at h
  obtain ⟨t, -, -, -, -, hf, hfl, -, rfl⟩ := h
  refine ⟨hfl, fun t' htab' task ht => ?_⟩
  cases htab'
  simp only [ht, Option.any_some, Bool.or_eq_false_iff, Option.isSome_eq_false_iff,
    Option.isNone_iff_eq_none] at hf
  exact hf.2

theorem id_eq_of_heldBy {id : GuardId} (ht : guard.taskId = id.taskId)
    (h : heldBy id guard) : guard.id = id := by
  simp only [heldBy, Bool.and_eq_true, beq_iff_eq] at h
  obtain ⟨ho, htok⟩ := h
  simp [CleanupGuard.id, ht, ho, htok]

theorem any_heldBy_of_release {id : GuardId} {msg : String}
    (h : ifDatabase database (releaseInDatabase database id now fileGuard) (do
      raiseIf (!fileGuard.any (heldBy id)) msg
      pure database) = .ok database') : ∀ guard ∈ fileGuard, heldBy id guard := by
  rintro guard hg
  cases hg
  unfold ifDatabase at h
  split at h
  · simp only [releaseInDatabase, bind_eq_ok_iff, exists_unit_iff, Prod.exists,
      raiseIf_eq_ok_iff, Option.some_or, Option.any_some, Bool.not_eq_false'] at h
    obtain ⟨-, -, -, -, -, hh, -⟩ := h
    exact hh
  · simp only [bind_eq_ok_iff, exists_unit_iff, raiseIf_eq_ok_iff, Option.any_some,
      Bool.not_eq_false'] at h
    exact h.1

theorem Inv.next (h : host.Inv digest) (hsnd : operation.Sound digest host.database host.files) :
    (host.record (operation.next digest host.database host.files)).Inv digest := by
  cases operation with
  | acquireRead guard _ f =>
    refine h.record_attempt fun database files p hby => ?_
    simp only [bind_eq_ok_iff, pure_eq_ok_iff, Prod.mk.injEq] at hby
    obtain ⟨database', hdb, rfl, rfl, rfl⟩ := hby
    refine inv_record_of_goesOn h.backed fun p hpr => ?_
    cases hpr
    refine ⟨_, rfl, ?_⟩
    change host.files.get? (digest guard.taskId) = f at hsnd
    unfold ifDatabase at hdb
    split at hdb
    · obtain ⟨rfl, hunl⟩ := unleased_of_acquireInDatabase hdb
      exact ⟨hsnd, hunl⟩
    · next hes =>
      simp only [bind_eq_ok_iff, exists_unit_iff, refuseHeld_eq_ok_iff, pure_eq_ok_iff] at hdb
      obtain ⟨rfl, rfl⟩ := hdb
      refine ⟨hsnd, fun tb htab => absurd ?_ hes⟩
      change host.database = .tables tb at htab
      rw [htab]
      rfl
  | acquireWrite =>
    refine ⟨Backed.write h.backed (.inl rfl) fun o hoth => ?_, fun _ hop => by cases hop⟩
    rw [hsnd.1] at hoth
    cases hoth
  | refreshRead =>
    refine h.record_attempt fun database files p hby => ?_
    simp only [bind_eq_ok_iff, getOrRaise_eq_ok_iff, pure_eq_ok_iff, Prod.mk.injEq,
      Option.filter_eq_some_iff] at hby
    obtain ⟨guard, ⟨rfl, _⟩, database', -, rfl, rfl, rfl⟩ := hby
    refine inv_record_of_goesOn h.backed fun p hpr => ?_
    cases hpr
    obtain ⟨hget, htk⟩ := hsnd
    exact ⟨_, rfl, guard, by rw [htk guard rfl, hget], rfl⟩
  | refreshWrite =>
    obtain ⟨guard, hget, hid⟩ := hsnd
    refine ⟨Backed.write h.backed (.inr rfl) fun o hoth => ?_, fun _ hop => by cases hop⟩
    rw [hget] at hoth
    cases hoth
    exact hid
  | releaseRead =>
    refine h.record_attempt fun database files p hby => ?_
    simp only [bind_eq_ok_iff, pure_eq_ok_iff, Prod.mk.injEq] at hby
    obtain ⟨database', hdb, rfl, rfl, rfl⟩ := hby
    refine inv_record_of_goesOn h.backed fun p hpr => ?_
    cases hpr
    obtain ⟨hget, htk⟩ := hsnd
    refine ⟨_, rfl, fun guard hgd => ?_⟩
    rw [hget] at hgd
    exact id_eq_of_heldBy (htk guard hgd) (any_heldBy_of_release hdb guard hgd)
  | releaseRemove => exact ⟨Backed.remove h.backed hsnd, fun _ hop => by cases hop⟩
  | claimCommit =>
    refine h.record_attempt fun database files p hby => ?_
    simp only [bind_eq_ok_iff, pure_eq_ok_iff, Prod.mk.injEq] at hby
    obtain ⟨database', -, rfl, rfl, rfl⟩ := hby
    exact ⟨h.backed, fun _ hop => by cases hop⟩

/-! ### Runs -/

theorem Inv.step (h : host.Inv digest) (move : GuardMove) : (host.step digest move).Inv digest := by
  cases move with
  | wait =>
    refine ⟨fun id e hl hlv => h.backed id e hl ?_, h.sound⟩
    exact lt_of_le_of_lt (le_max_left ..) hlv
  | initialise =>
    exact ⟨h.backed, fun operation hop =>
      sound_of_database (fun _ => Unleased.initialised) (h.sound operation hop)⟩
  | sync issue r =>
    simp only [Host.step]
    split
    · exact h
    · exact ⟨h.backed, fun operation hop =>
        sound_of_database (fun _ hun => Unleased.synced hun issue r) (h.sound operation hop)⟩
  | begin request =>
    simp only [Host.step]
    split
    · exact h
    · exact h.begin request
  | resume =>
    simp only [Host.step]
    split
    · next operation hh => exact h.next (h.sound operation hh)
    · exact h
  | crash => exact ⟨h.backed, fun _ hop => by cases hop⟩

/-- **The invariant holds after all moves.** -/
theorem inv_after (m : List GuardMove) : (after digest m).Inv digest := by
  induction m using List.reverseRecOn with
  | nil => exact inv_init
  | append_singleton m move ih =>
    rw [after, Journal.after_concat]
    exact ih.step move

/-! ### What a report says -/

theorem outcome_attempt {progress : Progress}
    (h : (Written.attempt database files body).outcome = .ok progress) :
    ∃ result, body = .ok result ∧ result.2.2 = progress := by
  rcases Written.attempt_cases database files body with
    ⟨msg, hr⟩ | ⟨database', files', progress', hok, hwr⟩
  · rw [hr] at h
    cases h
  · rw [hwr] at h
    cases h
    exact ⟨_, hok, rfl⟩

theorem begin_outcome_ne (d : Database) (f : Dict String CleanupGuard) (c : ℤ) (r : GuardRequest)
    (rp : Report) : (r.begin digest d f c).outcome ≠ .ok (.returns rp) := by
  cases r with
  | claim =>
    simp only [GuardRequest.begin]
    split
    · simp
    · intro ho
      obtain ⟨result, hok, hr⟩ := outcome_attempt ho
      simp only [bind_eq_ok_iff, exists_unit_iff, Prod.exists, pure_eq_ok_iff] at hok
      obtain ⟨-, -, -, -, -, -, -, -, active, f', -, rfl⟩ := hok
      cases hr
  | acquire taskId owner token t | refresh id t | release id =>
    intro ho
    obtain ⟨result, hok, hr⟩ := outcome_attempt ho
    simp only [bind_eq_ok_iff, exists_unit_iff, Prod.exists, pure_eq_ok_iff] at hok
    obtain ⟨-, active, f', -, rfl⟩ := hok
    cases hr

theorem fileGuard_eq_none_of_claim {r : ClaimRequest}
    (h : claimInDatabase database r now fileGuard = .ok database') : fileGuard = none := by
  simp only [claimInDatabase, bind_eq_ok_iff, Prod.exists] at h
  obtain ⟨_, -, e, _, -, _, hcl, -⟩ := h
  have hg := guarded_eq_false_of_claim hcl
  simp only [Bool.or_eq_false_iff] at hg
  simpa using hg.2

inductive Returns : GuardOperation → Report → Prop
  | acquired (guard : CleanupGuard) : Returns (.acquireWrite guard) (.acquired guard)
  | refreshed (guard : CleanupGuard) : Returns (.refreshWrite guard) (.refreshed guard)
  | released (id : GuardId) : Returns (.releaseRemove id) (.released id)
  | claimed (request : ClaimRequest) (now : ℤ) :
      Returns (.claimCommit request now none) (.claimed request.taskId)

theorem returns_of_next (h : (operation.next digest database files).outcome = .ok (.returns report))
    : Returns operation report := by
  cases operation with
  | acquireWrite guard =>
    cases h
    exact .acquired guard
  | refreshWrite r =>
    cases h
    exact .refreshed r
  | releaseRemove id =>
    cases h
    exact .released id
  | claimCommit request now =>
    obtain ⟨result, hok, hr⟩ := outcome_attempt h
    simp only [bind_eq_ok_iff, pure_eq_ok_iff] at hok
    obtain ⟨database', hcl, rfl⟩ := hok
    obtain rfl := fileGuard_eq_none_of_claim hcl
    cases hr
    exact .claimed request now
  | acquireRead guard now f | releaseRead id now fileGuard =>
    obtain ⟨result, hok, hr⟩ := outcome_attempt h
    simp only [bind_eq_ok_iff, pure_eq_ok_iff] at hok
    obtain ⟨database', -, rfl⟩ := hok
    cases hr
  | refreshRead =>
    obtain ⟨result, hok, hr⟩ := outcome_attempt h
    simp only [bind_eq_ok_iff, pure_eq_ok_iff] at hok
    obtain ⟨guard, -, database', -, rfl⟩ := hok
    cases hr

theorem returns_of_reports {move : GuardMove}
    (h : (host.step digest move).reports = report :: host.reports) :
    ∃ operation, host.holder = some operation ∧ Returns operation report := by
  have hsame : host.reports ≠ report :: host.reports := (List.cons_ne_self _ _).symm
  have hrec : ∀ written, (host.record written).reports = report :: host.reports →
      written.outcome = .ok (.returns report) := by
    intro written hr
    simp only [record] at hr
    split at hr
    · next reported ho => rw [ho, (List.cons.inj hr).1]
    · exact absurd hr hsame
  cases move with
  | wait now | initialise | crash => exact absurd h hsame
  | sync =>
    simp only [Host.step] at h
    split at h <;> exact absurd h hsame
  | begin =>
    simp only [Host.step] at h
    split at h
    · exact absurd h hsame
    · exact absurd (hrec _ h) (begin_outcome_ne _ _ _ _ _)
  | resume =>
    simp only [Host.step] at h
    split at h
    · next operation hh => exact ⟨operation, hh, returns_of_next (hrec _ h)⟩
    · exact absurd h hsame

def ClaimedUnderLease (host : Host) (taskId : String) : Prop :=
  ∃ tables task leaseId lease, host.database = .tables tables ∧
    tables.store.tasks.get? taskId = some task ∧ task.status = .claimed ∧
    task.leaseId = some leaseId ∧ tables.store.leases.get? leaseId = some lease ∧
    lease.isReleased = false

end Host

/-- **Cleanup and claims exclude each other.**  After any moves, when the next one commits a
claim on a task, the expiry that was last reported for an unreleased guard of the task has
passed; and when the next one reports an acquired guard, its task is not claimed under an
unreleased lease. -/
theorem cleanup_and_claims_exclude (digest : String → String) (moves : List GuardMove)
    (move : GuardMove) :
    (∀ id : GuardId,
      ((Host.after digest moves).step digest move).reports =
          .claimed id.taskId :: (Host.after digest moves).reports →
        ∀ expiry, lastReported id (Host.after digest moves).reports = some expiry →
          expiry ≤ (Host.after digest moves).clock) ∧
      ∀ guard,
        ((Host.after digest moves).step digest move).reports =
            .acquired guard :: (Host.after digest moves).reports →
          ¬ (Host.after digest moves).ClaimedUnderLease guard.taskId := by
  have hinv : (Host.after digest moves).Inv digest := Host.inv_after moves
  constructor
  · intro id hrep expiry hls
    obtain ⟨operation, hh, hret⟩ := Host.returns_of_reports hrep
    have hs := hinv.sound operation hh
    by_contra hlv
    have hf := hinv.backed id expiry hls (not_le.mp hlv)
    generalize hr : Report.claimed id.taskId = report at hret
    cases hret with
    | claimed request now =>
      -- the claim read the sidecar of the same task, and found none
      have ht : id.taskId = request.taskId := Report.claimed.inj hr
      change (Host.after digest moves).files.get? (digest request.taskId) = none at hs
      rw [← ht, hf] at hs
      cases hs
    | acquired guard | refreshed guard | released id => cases hr
  · rintro guard hrep ⟨t, task, l, lease, hdb, ht, -, hl, -⟩
    obtain ⟨operation, hh, hret⟩ := Host.returns_of_reports hrep
    have hs := hinv.sound operation hh
    cases hret
    rw [hs.2 t hdb task ht] at hl
    cases hl

namespace Sample

/-- A guard is acquired without a database; the sidecar is still to be written. -/
def acquiring : List GuardMove :=
  [.begin (.acquire "task-1" "cleaner" "guard-1" 900), .resume]

/-- Then the database appears with the task, a refresh dies before its last write, and a
claim comes when the guard has expired. -/
def claimingAfterExpiry : List GuardMove :=
  acquiring ++
    [.resume, .initialise, .sync ⟨"task-1", 21, .ready, {}⟩ true,
      .begin (.refresh ⟨"task-1", "cleaner", "guard-1"⟩ 3600), .resume, .crash,
      .wait 900000000,
      .begin (.claim ⟨"task-1", "agent-1", "lease-1", 90, false, none, false⟩)]

end Sample

/-- A claim that commits once the reported expiry has passed, and a guard that is acquired. -/
theorem claim_commits_after_expiry :
    (((Host.after id Sample.claimingAfterExpiry).step id .resume).reports =
        [.claimed "task-1", .acquired ⟨"task-1", "cleaner", "guard-1", 900000000⟩] ∧
      (900000000 : ℤ) ≤ (Host.after id Sample.claimingAfterExpiry).clock) ∧
      ((Host.after id Sample.acquiring).step id .resume).reports =
        [.acquired ⟨"task-1", "cleaner", "guard-1", 900000000⟩] ∧
      ¬ (Host.after id Sample.acquiring).ClaimedUnderLease "task-1" := by
  have hcl : ((Host.after id Sample.claimingAfterExpiry).step id .resume).reports =
      [.claimed "task-1", .acquired ⟨"task-1", "cleaner", "guard-1", 900000000⟩] := by
    decide +kernel
  have hb : (Host.after id Sample.claimingAfterExpiry).reports =
      [.acquired ⟨"task-1", "cleaner", "guard-1", 900000000⟩] := by
    decide +kernel
  have ha : ((Host.after id Sample.acquiring).step id .resume).reports =
      [.acquired ⟨"task-1", "cleaner", "guard-1", 900000000⟩] := by
    decide +kernel
  have hn : (Host.after id Sample.acquiring).reports = [] := by
    decide +kernel
  refine ⟨⟨hcl, ?_⟩, ha, ?_⟩
  · refine (cleanup_and_claims_exclude id Sample.claimingAfterExpiry .resume).1
      ⟨"task-1", "cleaner", "guard-1"⟩ ?_ 900000000 ?_
    · rw [hcl, hb]
    · rw [hb]
      decide
  · refine (cleanup_and_claims_exclude id Sample.acquiring .resume).2
      ⟨"task-1", "cleaner", "guard-1", 900000000⟩ ?_
    rw [ha, hn]

end AgenticPkm.Dispatcher
