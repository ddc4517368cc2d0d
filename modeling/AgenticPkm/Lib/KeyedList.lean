import Mathlib.Tactic
import Mathlib.Data.List.Sort
import Mathlib.Data.List.Dedup
import Mathlib.Data.List.MinMax

/-!
# Lists of keyed records

Program state is often a list of records, each carrying a key: records are looked
up by key, replaced by key, and kept in key order.  This file has the operations
such code is written with and the laws a proof about it needs.
-/

namespace AgenticPkm

open List

section Sorting

variable {α κ : Type} [LinearOrder κ]

/-- A stable sort on a key. -/
def sortedBy (key : α → κ) (l : List α) : List α :=
  l.insertionSort fun a b => key a ≤ key b

theorem perm_sortedBy (key : α → κ) (l : List α) : (sortedBy key l).Perm l :=
  perm_insertionSort _ l

variable {l : List α}

@[simp] theorem mem_sortedBy {key : α → κ} {a : α} : a ∈ sortedBy key l ↔ a ∈ l :=
  (perm_sortedBy key l).mem_iff

theorem pairwise_sortedBy (key : α → κ) (l : List α) :
    (sortedBy key l).Pairwise fun a b => key a ≤ key b := by
  have htot : Std.Total fun a b : α => key a ≤ key b := ⟨fun a b => le_total (key a) (key b)⟩
  have ht : IsTrans α fun a b => key a ≤ key b := ⟨fun a b c => le_trans⟩
  exact pairwise_insertionSort _ l

theorem eq_sortedBy_iff {key : α → κ} :
    l = sortedBy key l ↔ l.Pairwise fun a b => key a ≤ key b := by
  constructor
  · intro h
    rw [h]
    exact pairwise_sortedBy key l
  · intro h
    exact (List.Pairwise.insertionSort_eq h).symm

theorem orderedInsert_append {key : α → κ} {l' : List α} {a : α} (h : ∀ b ∈ l', key a ≤ key b) :
    (l ++ l').orderedInsert (fun a b => key a ≤ key b) a =
      l.orderedInsert (fun a b => key a ≤ key b) a ++ l' := by
  induction l with
  | nil =>
    cases l' with
    | nil => rfl
    | cons b l' => exact if_pos (h b mem_cons_self)
  | cons b l ih =>
    simp only [cons_append, orderedInsert_cons, ih]
    split <;> rfl

theorem sortedBy_append {key : α → κ} {l' : List α} (h : ∀ a ∈ l, ∀ b ∈ l', key a ≤ key b) :
    sortedBy key (l ++ l') = sortedBy key l ++ sortedBy key l' := by
  induction l with
  | nil => rfl
  | cons a l ih =>
    obtain ⟨ha, hl⟩ := forall_mem_cons.mp h
    unfold sortedBy at ih ⊢
    rw [cons_append, insertionSort_cons, insertionSort_cons, ih hl,
      orderedInsert_append fun b hb => ha b ((mem_insertionSort _).mp hb)]

theorem sortedBy_map {β : Type} (key : β → κ) (f : α → β) (l : List α) :
    sortedBy key (l.map f) = (sortedBy (fun a => key (f a)) l).map f := by
  unfold sortedBy
  exact (map_insertionSort _ _ f l fun a _ b _ => Iff.rfl).symm

variable {l' : List α}

theorem sortedBy_eq_of_perm {key : α → κ} (hk : ∀ a ∈ l, ∀ b ∈ l, key a = key b → a = b)
    (h : l.Perm l') : sortedBy key l = sortedBy key l' := by
  refine List.Perm.eq_of_pairwise (fun a b ha hb hab hba => ?_) (pairwise_sortedBy key l)
    (pairwise_sortedBy key l') ((perm_sortedBy key l).trans (h.trans (perm_sortedBy key l').symm))
  exact hk a (mem_sortedBy.mp ha) b (h.mem_iff.mpr (mem_sortedBy.mp hb)) (le_antisymm hab hba)

theorem perm_of_sortedBy_eq {key : α → κ} (h : sortedBy key l = sortedBy key l') : l.Perm l' := by
  have hp := (perm_sortedBy key l).symm
  rw [h] at hp
  exact hp.trans (perm_sortedBy key l')

theorem filter_orderedInsert (key : α → κ) (p : α → Bool) (a : α) (l : List α)
    (hl : l.Pairwise fun a b => key a ≤ key b) :
    (l.orderedInsert (fun a b => key a ≤ key b) a).filter p =
      if p a then (l.filter p).orderedInsert (fun a b => key a ≤ key b) a else l.filter p := by
  induction l with
  | nil => by_cases hp : p a <;> simp [hp]
  | cons b l ih =>
    obtain ⟨hb, hl⟩ := pairwise_cons.mp hl
    by_cases hab : key a ≤ key b
    · rw [orderedInsert_cons, if_pos hab]
      by_cases hp : p a
      · -- everything that is left stands behind the new element
        have ha : ∀ c ∈ (b :: l).filter p, key a ≤ key c := by
          intro c hc
          rcases mem_cons.mp (mem_filter.mp hc).1 with rfl | hm
          · exact hab
          · exact hab.trans (hb c hm)
        rw [filter_cons_of_pos hp, if_pos hp]
        cases hr : (b :: l).filter p with
        | nil => rfl
        | cons c rest =>
          rw [hr] at ha
          rw [orderedInsert_cons, if_pos (ha c mem_cons_self)]
      · rw [filter_cons_of_neg hp, if_neg hp]
    · rw [orderedInsert_cons, if_neg hab]
      by_cases hp : p a
      · rw [if_pos hp] at ih ⊢
        by_cases hpb : p b
        · rw [filter_cons_of_pos hpb, filter_cons_of_pos hpb, orderedInsert_cons, if_neg hab, ih hl]
        · rw [filter_cons_of_neg hpb, filter_cons_of_neg hpb, ih hl]
      · rw [if_neg hp] at ih ⊢
        by_cases hpb : p b
        · rw [filter_cons_of_pos hpb, filter_cons_of_pos hpb, ih hl]
        · rw [filter_cons_of_neg hpb, filter_cons_of_neg hpb, ih hl]

/-- **A stable sort commutes with a selection.** -/
theorem sortedBy_filter (key : α → κ) (p : α → Bool) (l : List α) :
    sortedBy key (l.filter p) = (sortedBy key l).filter p := by
  induction l with
  | nil => rfl
  | cons a l ih =>
    have hs := pairwise_sortedBy key l
    have hcn : sortedBy key (a :: l) =
        (sortedBy key l).orderedInsert (fun a b => key a ≤ key b) a := rfl
    rw [hcn, filter_orderedInsert key p a _ hs, ← ih]
    by_cases hp : p a
    · rw [if_pos hp, filter_cons_of_pos hp]
      rfl
    · rw [if_neg hp, filter_cons_of_neg hp]

theorem le_foldl_max {l : List κ} {start k : κ} (h : k ≤ start ∨ k ∈ l) :
    k ≤ l.foldl max start := by
  induction l generalizing start with
  | nil => simpa using h
  | cons first l ih =>
    refine ih ?_
    rcases h with h | h
    · exact .inl (h.trans (le_max_left _ _))
    · exact (mem_cons.mp h).imp_left fun heq => heq.trans_le (le_max_right _ _)

/-- The elements of a list, each once, in order. -/
def sortedSet (l : List κ) : List κ := sortedBy id l.dedup

@[simp] theorem mem_sortedSet {l : List κ} {a : κ} : a ∈ sortedSet l ↔ a ∈ l := by
  simp [sortedSet]

theorem pairwise_lt_sortedSet (l : List κ) : (sortedSet l).Pairwise (· < ·) := by
  have hle : (sortedSet l).Pairwise (· ≤ ·) := pairwise_sortedBy id l.dedup
  have hne : (sortedSet l).Pairwise (· ≠ ·) :=
    (perm_sortedBy id l.dedup).nodup_iff.mpr (nodup_dedup l)
  exact (hle.and hne).imp fun h => lt_of_le_of_ne h.1 h.2

theorem sortedSet_congr {l l' : List κ} (h : ∀ a, a ∈ l ↔ a ∈ l') : sortedSet l = sortedSet l' :=
  List.Pairwise.eq_of_mem_iff (pairwise_lt_sortedSet l) (pairwise_lt_sortedSet l')
    fun a => by simp [h a]

end Sorting

/-! ### Distinct keys -/

section Distinct

variable {α κ : Type} [DecidableEq κ] {key : α → κ}

/-- No two records share a key. -/
def DistinctKeys (key : α → κ) (l : List α) : Prop := (l.map key).Nodup

variable {l : List α} {a : α} {k : κ} {υ : Type} {f : α → α}

omit [DecidableEq κ] in
theorem DistinctKeys.eq_of_key_eq (h : DistinctKeys key l) {b : α} (ha : a ∈ l) (hb : b ∈ l)
    (hk : key a = key b) : a = b :=
  inj_on_of_nodup_map h ha hb hk

theorem DistinctKeys.find?_eq_some_iff (h : DistinctKeys key l) :
    l.find? (fun x => key x = k) = some a ↔ a ∈ l ∧ key a = k := by
  constructor
  · intro hf
    exact ⟨mem_of_find?_eq_some hf, by simpa using find?_some hf⟩
  · rintro ⟨ha, rfl⟩
    cases hf : l.find? fun x => key x = key a with
    | none =>
      have := find?_eq_none.mp hf a ha
      simp at this
    | some b =>
      have hb : key b = key a := by simpa using find?_some hf
      rw [h.eq_of_key_eq (mem_of_find?_eq_some hf) ha hb]

omit [DecidableEq κ] in
theorem DistinctKeys.of_map_eq {l' : List α} (h : DistinctKeys key l)
    (hm : l'.map key = l.map key) : DistinctKeys key l' := by
  unfold DistinctKeys
  rw [hm]
  exact h

omit [DecidableEq κ] in
theorem DistinctKeys.concat (h : DistinctKeys key l) (hnew : ∀ x ∈ l, key x ≠ key a) :
    DistinctKeys key (l ++ [a]) := by
  unfold DistinctKeys
  rw [map_append, map_singleton, ← concat_eq_append]
  refine List.Nodup.concat (fun hm => ?_) h
  obtain ⟨x, hx, hk⟩ := mem_map.mp hm
  exact hnew x hx hk

/-- The last record of key `k`: what a dictionary built from `l` maps `k` to. -/
def lastBy (key : α → κ) (k : κ) (l : List α) : Option α := l.reverse.find? fun x => key x = k

theorem lastBy_eq_some (h : lastBy key k l = some a) : a ∈ l ∧ key a = k :=
  ⟨mem_reverse.mp (mem_of_find?_eq_some h), by simpa using find?_some h⟩

theorem exists_lastBy (key : α → κ) (h : a ∈ l) : ∃ b, lastBy key (key a) l = some b := by
  cases hl : lastBy key (key a) l with
  | some b => exact ⟨b, rfl⟩
  | none =>
    have hno := find?_eq_none.mp hl a (mem_reverse.mpr h)
    simp at hno

theorem DistinctKeys.lastBy_eq_some_iff (h : DistinctKeys key l) :
    lastBy key k l = some a ↔ a ∈ l ∧ key a = k := by
  have hr : DistinctKeys key l.reverse := by
    unfold DistinctKeys
    rw [map_reverse, nodup_reverse]
    exact h
  rw [lastBy, hr.find?_eq_some_iff, mem_reverse]

/-- The element is the last of the list with a property. -/
def IsLast (p : α → Bool) (l : List α) (a : α) : Prop :=
  p a ∧ ∃ before after, l = before ++ a :: after ∧ ∀ later ∈ after, p later = false

theorem find?_reverse_eq_some_iff {p : α → Bool} :
    l.reverse.find? p = some a ↔ IsLast p l a := by
  rw [find?_eq_some_iff_append, IsLast]
  refine and_congr_right fun _ => ?_
  constructor
  · rintro ⟨as, bs, heq, has⟩
    refine ⟨bs.reverse, as.reverse, ?_, by simpa using has⟩
    rw [← reverse_reverse l, heq]
    simp
  · rintro ⟨before, after, rfl, hafter⟩
    exact ⟨after.reverse, before.reverse, by simp, by simpa using hafter⟩

/-- Among growing numbers the greatest element with a property is the last. -/
theorem argmax_filter_eq {f : α → ℕ} (p : α → Bool) (h : (l.map f).Pairwise (· < ·)) :
    (l.filter p).argmax f = l.reverse.find? p := by
  induction l using List.reverseRecOn with
  | nil => rfl
  | append_singleton l a ih =>
    rw [map_append, pairwise_append] at h
    have hlt : ∀ b ∈ l, f b < f a := by
      intro b hb
      exact h.2.2 _ (mem_map_of_mem hb) _ (by simp)
    rw [filter_append, reverse_append]
    by_cases hp : p a
    · rw [filter_singleton, hp, cond_true, argmax_concat]
      cases hm : (l.filter p).argmax f with
      | none => simp [hp]
      | some b => simp [hp, hlt b (mem_filter.mp (argmax_mem hm)).1]
    · simp [hp, ih h.1]

/-- The first record of each key: the values of a dictionary that `setdefault` fills. -/
def firstBy (key : α → κ) : List α → List α
  | [] => []
  | a :: l => a :: (firstBy key l).filter fun x => key x ≠ key a

theorem firstBy_sublist (l : List α) : (firstBy key l).Sublist l := by
  induction l with
  | nil => exact List.Sublist.refl _
  | cons a l ih => exact (filter_sublist.trans ih).cons_cons a

theorem distinctKeys_firstBy (l : List α) : DistinctKeys key (firstBy key l) := by
  induction l with
  | nil => exact nodup_nil
  | cons a l ih =>
    unfold DistinctKeys firstBy
    rw [map_cons, nodup_cons]
    refine ⟨?_, List.Nodup.sublist (filter_sublist.map key) ih⟩
    intro hm
    obtain ⟨x, hx, hk⟩ := mem_map.mp hm
    have hne : key x ≠ key a := by simpa using (mem_filter.mp hx).2
    exact hne hk

/-- `l` with `e` in place of every record of its key. -/
def replaceBy (key : α → κ) (e : α) (l : List α) : List α :=
  l.map fun x => if key x = key e then e else x

/-- `l` with `f` applied to the records of key `k`. -/
def modifyBy (key : α → κ) (k : κ) (f : α → α) (l : List α) : List α :=
  l.map fun x => if key x = k then f x else x

theorem DistinctKeys.replaceBy_eq_modifyBy (h : DistinctKeys key l) (ha : a ∈ l) (f : α → α)
    (hf : key (f a) = key a) : replaceBy key (f a) l = modifyBy key (key a) f l := by
  refine map_congr_left fun x hx => ?_
  rw [hf]
  by_cases hk : key x = key a
  · rw [h.eq_of_key_eq hx ha hk]
  · simp [hk]

theorem DistinctKeys.eraseP_eq_filter (h : DistinctKeys key l) (k : κ) :
    (l.eraseP fun x => key x = k) = l.filter fun x => key x ≠ k := by
  induction l with
  | nil => rfl
  | cons a l ih =>
    obtain ⟨ha, hl⟩ : key a ∉ l.map key ∧ (l.map key).Nodup := nodup_cons.mp h
    by_cases hk : key a = k
    · rw [eraseP_cons_of_pos (by simpa using hk), filter_cons_of_neg (by simpa using hk)]
      refine (filter_eq_self.mpr fun x hx => ?_).symm
      rw [decide_eq_true_eq]
      rintro hx'
      exact ha (by rw [hk, ← hx']; exact mem_map_of_mem hx)
    · rw [eraseP_cons_of_neg (by simpa using hk), filter_cons_of_pos (by simpa using hk), ih hl]

variable {x : α} {k' : κ} {g : α → α}

theorem DistinctKeys.filter_key (h : DistinctKeys key l) (hx : x ∈ l) :
    (l.filter fun y => key y = key x) = [x] := by
  induction l with
  | nil => simp at hx
  | cons a l ih =>
    obtain ⟨ha, hl⟩ : key a ∉ l.map key ∧ (l.map key).Nodup := nodup_cons.mp h
    rcases mem_cons.mp hx with rfl | hx
    · have hn : (l.filter fun y => key y = key x) = [] := by
        refine filter_eq_nil_iff.mpr fun y hy => ?_
        simp only [decide_eq_true_eq]
        intro hk
        exact ha (hk ▸ mem_map_of_mem hy)
      simp [hn]
    · have hne : key a ≠ key x := fun hk => ha (hk ▸ mem_map_of_mem hx)
      rw [filter_cons_of_neg (by simpa using hne)]
      exact ih hl hx

/-- With distinct keys, what a record contributes to a list of keyed items can be
read off the list. -/
theorem DistinctKeys.filter_flatMap (h : DistinctKeys key l) (t : υ → κ) (g : α → List υ)
    (hg : ∀ y ∈ l, ∀ u ∈ g y, t u = key y) (hx : x ∈ l) :
    ((l.flatMap g).filter fun u => t u = key x) = g x := by
  induction l with
  | nil => simp at hx
  | cons a l ih =>
    obtain ⟨ha, hl⟩ : key a ∉ l.map key ∧ (l.map key).Nodup := nodup_cons.mp h
    have hg' : ∀ y ∈ l, ∀ u ∈ g y, t u = key y := fun y hy => hg y (mem_cons_of_mem a hy)
    have ht := hg a mem_cons_self
    rw [flatMap_cons, filter_append]
    rcases mem_cons.mp hx with rfl | hx
    · have hh : ((g x).filter fun u => t u = key x) = g x :=
        filter_eq_self.mpr fun u hu => by simpa using ht u hu
      have htl : ((l.flatMap g).filter fun u => t u = key x) = [] := by
        refine filter_eq_nil_iff.mpr fun u hu => ?_
        obtain ⟨y, hy, hu⟩ := mem_flatMap.mp hu
        simp only [decide_eq_true_eq, hg' y hy u hu]
        intro hk
        exact ha (hk ▸ mem_map_of_mem hy)
      rw [hh, htl, append_nil]
    · have hh : ((g a).filter fun u => t u = key x) = [] := by
        refine filter_eq_nil_iff.mpr fun u hu => ?_
        simp only [decide_eq_true_eq, ht u hu]
        intro hk
        exact ha (hk ▸ mem_map_of_mem hx)
      rw [hh, nil_append]
      exact ih hl hg' hx

/-- With distinct keys, what only one record contributes is all there is. -/
theorem DistinctKeys.flatMap_ite (h : DistinctKeys key l) (ha : a ∈ l) (us : List υ) :
    (l.flatMap fun x => if key x = key a then us else []) = us := by
  have hf : (l.flatMap fun x => if key x = key a then us else []) =
      (l.filter fun x => key x = key a).flatMap fun _ => us := by
    clear ha h
    induction l with
    | nil => rfl
    | cons x l ih =>
      by_cases hk : key x = key a
      · simp [hk, ih]
      · simp [hk, ih]
  rw [hf, h.filter_key ha]
  simp

theorem modifyBy_of_notMem (h : ∀ x ∈ l, key x ≠ k) : modifyBy key k f l = l := by
  conv_rhs => rw [← map_id l]
  refine map_congr_left fun x hx => ?_
  simp [h x hx]

theorem modifyBy_comm (hk : k ≠ k') (hf : ∀ x, key x = k → key (f x) = k)
    (hg : ∀ x, key x = k' → key (g x) = k') (l : List α) :
    modifyBy key k f (modifyBy key k' g l) = modifyBy key k' g (modifyBy key k f l) := by
  simp only [modifyBy, map_map]
  refine map_congr_left fun x _ => ?_
  simp only [Function.comp_apply]
  by_cases hx : key x = k
  · have hx' : key x ≠ k' := fun h => hk (hx.symm.trans h)
    have hfx : key (f x) ≠ k' := fun h => hk ((hf x hx).symm.trans h)
    rw [if_neg hx', if_pos hx, if_neg hfx]
  · by_cases hx' : key x = k'
    · have hgx : key (g x) ≠ k := fun h => hk (h.symm.trans (hg x hx'))
      rw [if_pos hx', if_neg hgx, if_neg hx, if_pos hx']
    · rw [if_neg hx', if_neg hx, if_neg hx']

theorem find?_modifyBy_of_ne (hk : k ≠ k') (hg : ∀ x, key x = k' → key (g x) = k') (l : List α) :
    ((modifyBy key k' g l).find? fun x => key x = k) = l.find? fun x => key x = k := by
  induction l with
  | nil => rfl
  | cons x l ih =>
    have ih : ((l.map fun x => if key x = k' then g x else x).find? fun x => key x = k) =
        l.find? fun x => key x = k := ih
    rw [modifyBy, map_cons, find?_cons, find?_cons, ih]
    by_cases hx : key x = k'
    · have hgx : key (g x) ≠ k := fun h => hk (h.symm.trans (hg x hx))
      simp [hx, hgx, hk.symm]
    · rw [if_neg hx]

theorem map_key_modifyBy (hf : ∀ x, key x = k → key (f x) = k) :
    (modifyBy key k f l).map key = l.map key := by
  rw [modifyBy, map_map]
  refine map_congr_left fun x _ => ?_
  by_cases hk : key x = k
  · simp [hk, hf x hk]
  · simp [hk]

variable (key) in
/-- **A run of keyed updates is one pass over the list**: each record meets the
updates of its own key, in order. -/
theorem foldl_modifyBy (t : υ → κ) (f : υ → α → α)
    (hf : ∀ u x, key x = t u → key (f u x) = t u) (us : List υ) (l : List α) :
    us.foldl (fun acc u => modifyBy key (t u) (f u) acc) l =
      l.map fun x => (us.filter fun u => t u = key x).foldl (fun x u => f u x) x := by
  induction us generalizing l with
  | nil => simp
  | cons u us ih =>
    rw [foldl_cons, ih, modifyBy, map_map]
    refine map_congr_left fun x _ => ?_
    by_cases hk : key x = t u
    · have hkey : key (f u x) = key x := (hf u x hk).trans hk.symm
      simp [hk.symm, hkey]
    · have hk' : t u ≠ key x := fun h => hk h.symm
      simp [hk, hk']

end Distinct

/-! ### Key order -/

section Ordered

variable {α κ : Type} [LinearOrder κ] {key : α → κ}

/-- The list is in strictly increasing key order. -/
def StrictKeys (key : α → κ) (l : List α) : Prop := l.Pairwise fun a b => key a < key b

@[simp] theorem strictKeys_nil : StrictKeys key [] := List.Pairwise.nil

variable {l : List α}

theorem StrictKeys.distinctKeys (h : StrictKeys key l) : DistinctKeys key l := by
  unfold DistinctKeys List.Nodup
  rw [pairwise_map]
  exact h.imp fun hlt => ne_of_lt hlt

theorem strictKeys_of_sorted (hle : l.Pairwise fun a b => key a ≤ key b) (hd : DistinctKeys key l) :
    StrictKeys key l := by
  have hne : l.Pairwise fun a b => key a ≠ key b := pairwise_map.mp hd
  exact (hle.and hne).imp fun h => lt_of_le_of_ne h.1 h.2

/-- `l` in key order, with `e` in place of the record of its key. -/
def upsertBy (key : α → κ) (e : α) (l : List α) : List α :=
  sortedBy key (l.filter (fun x => key x ≠ key e) ++ [e])

variable {e : α}

@[simp] theorem mem_upsertBy {x : α} : x ∈ upsertBy key e l ↔ (x ∈ l ∧ key x ≠ key e) ∨ x = e := by
  simp [upsertBy]

/-- **`upsertBy` keeps the list in strictly increasing key order.** -/
theorem strictKeys_upsertBy (h : DistinctKeys key l) : StrictKeys key (upsertBy key e l) := by
  refine strictKeys_of_sorted (pairwise_sortedBy key _) ?_
  have hp := (perm_sortedBy key (l.filter (fun x => key x ≠ key e) ++ [e])).map key
  refine hp.nodup_iff.mpr (DistinctKeys.concat ?_ fun x hx => ?_)
  · exact List.Nodup.sublist (filter_sublist.map key) h
  · simpa using (mem_filter.mp hx).2

/-- The dictionary built from `l` by key, read in key order: of several records of
one key, the last. -/
def dictBy (key : α → κ) (l : List α) : List α :=
  (sortedSet (l.map key)).filterMap fun k => lastBy key k l

theorem mem_of_mem_dictBy {a : α} (h : a ∈ dictBy key l) : a ∈ l := by
  obtain ⟨k, -, hk⟩ := mem_filterMap.mp h
  exact (lastBy_eq_some hk).1

theorem map_key_dictBy (l : List α) : (dictBy key l).map key = sortedSet (l.map key) := by
  have hf : ∀ k ∈ sortedSet (l.map key), ∃ a, lastBy key k l = some a ∧ key a = k := by
    intro k hk
    obtain ⟨b, hb, hkey⟩ := mem_map.mp (mem_sortedSet.mp hk)
    cases hl : lastBy key k l with
    | none =>
      have := find?_eq_none.mp hl b (mem_reverse.mpr hb)
      exact absurd hkey (by simpa using this)
    | some a => exact ⟨a, rfl, (lastBy_eq_some hl).2⟩
  unfold dictBy
  generalize sortedSet (l.map key) = ks at hf
  induction ks with
  | nil => rfl
  | cons k ks ih =>
    obtain ⟨a, ha, hkey⟩ := hf k mem_cons_self
    have hr := ih fun k' hk' => hf k' (mem_cons_of_mem k hk')
    simp only [filterMap_cons, ha, map_cons, hkey, hr]

theorem strictKeys_dictBy (l : List α) : StrictKeys key (dictBy key l) := by
  have hkeys := pairwise_lt_sortedSet (l.map key)
  rw [← map_key_dictBy] at hkeys
  exact pairwise_map.mp hkeys

/-- **With distinct keys, a dictionary is its records in key order.** -/
theorem DistinctKeys.perm_dictBy (h : DistinctKeys key l) : (dictBy key l).Perm l := by
  have hn : ∀ {m : List α}, DistinctKeys key m → m.Nodup := fun hm => hm.of_map
  rw [perm_ext_iff_of_nodup (hn (strictKeys_dictBy l).distinctKeys) (hn h)]
  intro a
  refine ⟨mem_of_mem_dictBy, fun ha => ?_⟩
  exact mem_filterMap.mpr ⟨key a, mem_sortedSet.mpr (mem_map_of_mem ha),
    h.lastBy_eq_some_iff.mpr ⟨ha, rfl⟩⟩

end Ordered

end AgenticPkm
