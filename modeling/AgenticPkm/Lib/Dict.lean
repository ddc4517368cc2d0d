import Mathlib.Tactic

/-!
# Dictionaries in insertion order

A dictionary holds one value a key and remembers the order in which its keys came
in: writing to a key that is there replaces its value in place, a new key goes to
the end, and a key that is deleted and written again goes to the end as well.  Two
dictionaries are the same when they hold the same values, whatever the order.
-/

namespace AgenticPkm

open List Option

/-- A dictionary: its items, oldest key first. -/
structure Dict (κ α : Type) where
  items : List (κ × α)
  distinct : (items.map Prod.fst).Nodup

namespace Dict

variable {κ α β : Type}

/-- The dictionary without items. -/
def empty : Dict κ α := ⟨[], List.nodup_nil⟩

instance : EmptyCollection (Dict κ α) := ⟨empty⟩

instance : Inhabited (Dict κ α) := ⟨empty⟩

@[simp] theorem items_empty : (∅ : Dict κ α).items = [] := rfl

/-- The keys, oldest first. -/
def keys (d : Dict κ α) : List κ := d.items.map Prod.fst

/-- The values, in the order of their keys. -/
def values (d : Dict κ α) : List α := d.items.map Prod.snd

theorem nodup_keys (d : Dict κ α) : d.keys.Nodup := d.distinct

variable {d : Dict κ α} {a : α} {k : κ} {key : α → κ} {l : List α}

@[simp] theorem mem_values : a ∈ d.values ↔ ∃ k, (k, a) ∈ d.items := by
  simp [values]

theorem eq_of_mem_items {b : α} (ha : (k, a) ∈ d.items) (hb : (k, b) ∈ d.items) : a = b := by
  have heq : (k, a) = (k, b) := inj_on_of_nodup_map d.distinct ha hb rfl
  exact congrArg Prod.snd heq

theorem eq_of_items_eq {d' : Dict κ α} (h : d.items = d'.items) : d = d' := by
  cases d
  cases d'
  cases h
  rfl

/-! ### Values under a function -/

/-- `{k: f(v) for k, v in d.items()}`. -/
def mapValues (f : α → β) (d : Dict κ α) : Dict κ β where
  items := d.items.map fun item => (item.1, f item.2)
  distinct := by
    rw [List.map_map]
    exact d.distinct

@[simp] theorem keys_mapValues (f : α → β) (d : Dict κ α) : (d.mapValues f).keys = d.keys := by
  unfold keys mapValues
  rw [List.map_map]
  rfl

@[simp] theorem values_mapValues (f : α → β) (d : Dict κ α) :
    (d.mapValues f).values = d.values.map f := by
  unfold values mapValues
  rw [List.map_map, List.map_map]
  rfl

@[simp] theorem length_items_mapValues (f : α → β) (d : Dict κ α) :
    (d.mapValues f).items.length = d.items.length :=
  length_map _

/-! ### Reading -/

variable [DecidableEq κ]

/-- The value of a key. -/
def get? (d : Dict κ α) (k : κ) : Option α :=
  (d.items.find? fun item => item.1 = k).map Prod.snd

@[simp] theorem get?_empty (k : κ) : (∅ : Dict κ α).get? k = none := rfl

/-- **The items are what is read.** -/
theorem mem_items : (k, a) ∈ d.items ↔ d.get? k = some a := by
  unfold get?
  rw [map_eq_some_iff]
  constructor
  · intro h
    cases hf : d.items.find? fun item => item.1 = k with
    | none =>
      have hno := find?_eq_none.mp hf (k, a) h
      simp at hno
    | some item =>
      have hk : item.1 = k := by simpa using find?_some hf
      refine ⟨item, rfl, ?_⟩
      have hi : (k, item.2) ∈ d.items := by
        rw [← hk]
        exact mem_of_find?_eq_some hf
      exact eq_of_mem_items hi h
  · rintro ⟨item, hf, rfl⟩
    have hk : item.1 = k := by simpa using find?_some hf
    rw [← hk]
    exact mem_of_find?_eq_some hf

theorem mem_keys : k ∈ d.keys ↔ ∃ a, d.get? k = some a := by
  simp [keys, mem_items]

theorem get?_eq_none_iff : d.get? k = none ↔ k ∉ d.keys := by
  rw [mem_keys, eq_none_iff_forall_ne_some]
  simp

/-! ### Writing -/

/-- The items after a write: in place for a key that is there, at the end for a new one. -/
def setItem (k : κ) (a : α) : List (κ × α) → List (κ × α)
  | [] => [(k, a)]
  | item :: items => if item.1 = k then (k, a) :: items else item :: setItem k a items

theorem keys_setItem (k : κ) (a : α) (i : List (κ × α)) :
    (setItem k a i).map Prod.fst =
      if k ∈ i.map Prod.fst then i.map Prod.fst else i.map Prod.fst ++ [k] := by
  induction i with
  | nil => rfl
  | cons item i ih =>
    unfold setItem
    by_cases hk : item.1 = k
    · rw [if_pos hk, ← hk]
      simp
    · rw [if_neg hk, map_cons, map_cons, ih]
      by_cases hm : k ∈ i.map Prod.fst
      · rw [if_pos hm, if_pos (mem_cons_of_mem _ hm)]
      · have hnew : k ∉ item.1 :: i.map Prod.fst := by
          rw [mem_cons, not_or]
          exact ⟨fun h => hk h.symm, hm⟩
        rw [if_neg hm, if_neg hnew, cons_append]

/-- `d[k] = a`. -/
def set (d : Dict κ α) (k : κ) (a : α) : Dict κ α where
  items := setItem k a d.items
  distinct := by
    rw [keys_setItem]
    split
    · exact d.distinct
    next hnew => exact List.nodup_append.mpr ⟨d.distinct, List.nodup_singleton k, by
        intro x hx y hy
        rw [List.mem_singleton.mp hy]
        rintro rfl
        exact hnew hx⟩

theorem items_set_of_notMem (h : k ∉ d.keys) (a : α) : (d.set k a).items = d.items ++ [(k, a)] := by
  have hi : ∀ items : List (κ × α), k ∉ items.map Prod.fst →
      setItem k a items = items ++ [(k, a)] := by
    intro items hnew
    induction items with
    | nil => rfl
    | cons item items ih =>
      rw [map_cons, mem_cons, not_or] at hnew
      rw [setItem, if_neg (Ne.symm hnew.1), ih hnew.2, cons_append]
  exact hi d.items h

theorem set_set (d : Dict κ α) (k : κ) (a b : α) : (d.set k a).set k b = d.set k b := by
  have hi : ∀ items : List (κ × α), setItem k b (setItem k a items) = setItem k b items := by
    intro items
    induction items with
    | nil => simp [setItem]
    | cons item items ih =>
      by_cases hk : item.1 = k
      · simp [setItem, hk]
      · simp [setItem, hk, ih]
  simp [set, hi]

theorem set_of_get?_eq_some (h : d.get? k = some a) : d.set k a = d := by
  have hi : ∀ items : List (κ × α), (items.find? fun item => item.1 = k).map Prod.snd = some a →
      setItem k a items = items := by
    intro items
    induction items with
    | nil => simp
    | cons item items ih =>
      intro hf
      by_cases hk : item.1 = k
      · obtain ⟨k', b⟩ := item
        simp_all [setItem]
      · rw [setItem, if_neg hk, ih (by simpa [hk] using hf)]
  exact eq_of_items_eq (hi d.items h)

theorem find?_setItem (k k' : κ) (a : α) (i : List (κ × α)) :
    ((setItem k a i).find? fun item => item.1 = k').map Prod.snd =
      if k' = k then some a else (i.find? fun item => item.1 = k').map Prod.snd := by
  induction i with
  | nil =>
    by_cases hk : k' = k
    · simp [setItem, hk]
    · simp [setItem, hk, Ne.symm hk]
  | cons item i ih =>
    unfold setItem
    by_cases hi : item.1 = k
    · rw [if_pos hi]
      by_cases hk : k' = k
      · simp [hk]
      · have ho : item.1 ≠ k' := fun h => hk (h.symm.trans hi)
        simp [hk, Ne.symm hk, ho]
    · rw [if_neg hi]
      by_cases hf : item.1 = k'
      · have hk : k' ≠ k := fun h => hi (hf.trans h)
        simp [hf, hk]
      · rw [find?_cons_of_neg (by simpa using hf), find?_cons_of_neg (by simpa using hf)]
        exact ih

/-- **What is read after a write.** -/
theorem get?_set (d : Dict κ α) (k k' : κ) (a : α) :
    (d.set k a).get? k' = if k' = k then some a else d.get? k' :=
  find?_setItem k k' a d.items

@[simp] theorem get?_set_self (d : Dict κ α) (k : κ) (a : α) : (d.set k a).get? k = some a := by
  rw [get?_set, if_pos rfl]

theorem get?_set_of_ne (d : Dict κ α) {k' : κ} (a : α) (h : k' ≠ k) :
    (d.set k a).get? k' = d.get? k' := by
  rw [get?_set, if_neg h]

theorem get?_set_of_some {k' : κ} {b : α} (hnew : d.get? k = none) (h : d.get? k' = some b) :
    (d.set k a).get? k' = some b := by
  rw [get?_set_of_ne _ _ ?_, h]
  rintro rfl
  rw [hnew] at h
  cases h

theorem get?_set_concat {x : α} (h : ∀ {k a}, d.get? k = some a ↔ a ∈ l ∧ key a = k)
    (hnew : d.get? (key x) = none) :
    (d.set (key x) x).get? k = some a ↔ a ∈ l ++ [x] ∧ key a = k := by
  rw [mem_append, mem_singleton]
  constructor
  · intro hs
    rw [get?_set] at hs
    split at hs
    · next heq =>
      cases hs
      exact ⟨.inr rfl, heq.symm⟩
    · exact (h.mp hs).imp_left .inl
  · rintro ⟨hm | rfl, rfl⟩
    · exact get?_set_of_some hnew (h.mpr ⟨hm, rfl⟩)
    · exact get?_set_self ..

theorem get?_foldl_set (hd : (l.map key).Nodup) (d : Dict κ α) :
    (l.foldl (fun d x => d.set (key x) x) d).get? k = some a ↔
      (a ∈ l ∧ key a = k) ∨ (k ∉ l.map key ∧ d.get? k = some a) := by
  induction l generalizing d with
  | nil => simp
  | cons x l ih =>
    obtain ⟨hx, hl⟩ := nodup_cons.mp hd
    rw [foldl_cons, ih hl, get?_set, map_cons, mem_cons, mem_cons]
    by_cases hk : k = key x
    · -- the key of the first element is not written again
      have hn : k ∉ l.map key := hk ▸ hx
      have hl : a ∈ l → key a ≠ k := fun ha heq => hn (heq ▸ mem_map_of_mem ha)
      rw [if_pos hk, Option.some.injEq]
      constructor
      · rintro (⟨ha, heq⟩ | ⟨-, rfl⟩)
        · exact absurd heq (hl ha)
        · exact .inl ⟨.inl rfl, hk.symm⟩
      · rintro (⟨rfl | ha, heq⟩ | ⟨hne, -⟩)
        · exact .inr ⟨hn, rfl⟩
        · exact absurd heq (hl ha)
        · exact absurd (.inl hk) hne
    · rw [if_neg hk]
      constructor
      · rintro (⟨ha, heq⟩ | ⟨hn, hg⟩)
        · exact .inl ⟨.inr ha, heq⟩
        · exact .inr ⟨not_or.mpr ⟨hk, hn⟩, hg⟩
      · rintro (⟨rfl | ha, heq⟩ | ⟨hn, hg⟩)
        · exact absurd heq.symm hk
        · exact .inl ⟨ha, heq⟩
        · exact .inr ⟨(not_or.mp hn).2, hg⟩

/-! ### Deleting -/

/-- `del d[k]`, without an error for a key that is not there. -/
def erase (d : Dict κ α) (k : κ) : Dict κ α where
  items := d.items.filter fun item => item.1 ≠ k
  distinct := d.distinct.sublist (List.filter_sublist.map _)

/-- **What is read after a deletion.** -/
theorem get?_erase (d : Dict κ α) (k k' : κ) :
    (d.erase k).get? k' = if k' = k then none else d.get? k' := by
  have hm : ∀ a, (k', a) ∈ (d.erase k).items ↔ (k', a) ∈ d.items ∧ k' ≠ k := by
    intro a
    simp [erase]
  by_cases hk : k' = k
  · rw [if_pos hk, eq_none_iff_forall_ne_some]
    intro a ha
    exact ((hm a).mp (mem_items.mpr ha)).2 hk
  · rw [if_neg hk]
    refine Option.ext fun a => ?_
    rw [← mem_items, ← mem_items, hm]
    simp [hk]

@[simp] theorem get?_erase_self (d : Dict κ α) (k : κ) : (d.erase k).get? k = none := by
  rw [get?_erase, if_pos rfl]

theorem erase_of_get?_eq_none (h : d.get? k = none) : d.erase k = d := by
  refine eq_of_items_eq (filter_eq_self.mpr fun item hi => ?_)
  rw [decide_eq_true_eq]
  rintro rfl
  exact get?_eq_none_iff.mp h (mem_map_of_mem hi)

theorem erase_set_of_get?_eq_none (h : d.get? k = none) (a : α) : (d.set k a).erase k = d := by
  have hi : ((d.set k a).erase k).items = (d.erase k).items := by
    unfold erase
    simp only
    rw [items_set_of_notMem (get?_eq_none_iff.mp h), filter_append]
    simp
  rw [eq_of_items_eq hi, erase_of_get?_eq_none h]

theorem get?_foldl_erase (ks : List κ) (d : Dict κ α) (k : κ) :
    (ks.foldl (fun d k => d.erase k) d).get? k = if k ∈ ks then none else d.get? k := by
  induction ks generalizing d with
  | nil => simp
  | cons k' ks ih =>
    rw [foldl_cons, ih, get?_erase]
    by_cases hk : k = k'
    · simp [hk]
    · simp [hk]

/-! ### Selecting -/

/-- `{k: v for k, v in d.items() if p(k)}`. -/
def keep (p : κ → Bool) (d : Dict κ α) : Dict κ α where
  items := d.items.filter fun item => p item.1
  distinct := d.distinct.sublist (List.filter_sublist.map _)

/-! ### Reading values under a function -/

omit [DecidableEq κ] in
theorem keep_mapValues (f : α → β) (p : κ → Bool) (d : Dict κ α) :
    (d.mapValues f).keep p = (d.keep p).mapValues f :=
  eq_of_items_eq List.filter_map

/-- **What is read of mapped values.** -/
theorem get?_mapValues (f : α → β) (d : Dict κ α) (k : κ) :
    (d.mapValues f).get? k = (d.get? k).map f := by
  refine Option.ext fun b => ?_
  rw [← mem_items, map_eq_some_iff]
  simp only [mapValues, List.mem_map, Prod.exists, Prod.mk.injEq, ← mem_items]
  constructor
  · rintro ⟨k', a, hi, rfl, rfl⟩
    exact ⟨a, hi, rfl⟩
  · rintro ⟨a, hi, rfl⟩
    exact ⟨k, a, hi, rfl, rfl⟩

/-! ### Grouping -/

/-- A `defaultdict(list)` filled by appending every element under its key. -/
def groupBy (key : α → κ) (l : List α) : Dict κ (List α) :=
  l.foldl (fun d a => d.set (key a) ((d.get? (key a)).getD [] ++ [a])) ∅

theorem get?_groupBy_aux (key : α → κ) (l : List α) (d : Dict κ (List α)) (k : κ) :
    ((l.foldl (fun d a => d.set (key a) ((d.get? (key a)).getD [] ++ [a])) d).get? k) =
      if (l.filter fun a => key a = k) = [] then d.get? k
      else some ((d.get? k).getD [] ++ l.filter fun a => key a = k) := by
  induction l generalizing d with
  | nil => simp
  | cons a l ih =>
    rw [foldl_cons, ih]
    by_cases hk : key a = k
    · subst hk
      rw [filter_cons_of_pos (by simp), get?_set_self]
      by_cases hr : (l.filter fun b => key b = key a) = []
      · simp [hr]
      · simp [hr]
    · rw [filter_cons_of_neg (by simpa using hk), get?_set_of_ne d _ (Ne.symm hk)]

theorem get?_groupBy (key : α → κ) (l : List α) (k : κ) :
    (groupBy key l).get? k =
      if (l.filter fun a => key a = k) = [] then none else some (l.filter fun a => key a = k) := by
  rw [groupBy, get?_groupBy_aux]
  simp

/-- **A group is the elements of its key, in order.** -/
theorem getD_groupBy (key : α → κ) (l : List α) (k : κ) :
    ((groupBy key l).get? k).getD [] = l.filter fun a => key a = k := by
  rw [get?_groupBy]
  by_cases hn : (l.filter fun a => key a = k) = []
  · rw [if_pos hn, hn]
    rfl
  · rw [if_neg hn]
    rfl

theorem mem_keys_groupBy : k ∈ (groupBy key l).keys ↔ ∃ a ∈ l, key a = k := by
  rw [← not_iff_not, ← get?_eq_none_iff, get?_groupBy]
  by_cases hn : (l.filter fun a => key a = k) = []
  · rw [if_pos hn]
    simpa [filter_eq_nil_iff] using hn
  · rw [if_neg hn]
    simpa [filter_eq_nil_iff] using hn

theorem exists_group_of_perm {l' : List α} (h : l.Perm l') {group : List α}
    (hg : (k, group) ∈ (groupBy key l).items) :
    ∃ group', (k, group') ∈ (groupBy key l').items ∧ group.Perm group' := by
  have hf := h.filter fun a => decide (key a = k)
  rw [mem_items, get?_groupBy] at hg
  by_cases hn : (l.filter fun a => key a = k) = []
  · rw [if_pos hn] at hg
    cases hg
  · rw [if_neg hn] at hg
    cases hg
    refine ⟨_, ?_, hf⟩
    rw [mem_items, get?_groupBy, if_neg]
    intro hemp
    rw [hemp] at hf
    exact hn hf.eq_nil

/-! ### Passes over the items -/

/-- **A pass over the items, seen through one key.**  When the step of every other item
leaves a view of the state alone, what the whole pass does to the view is what the step
of that key does, once if the key is there. -/
theorem view_foldl {σ τ : Type} (P : σ → Prop) (view : σ → τ) (here : α → τ → τ)
    {step : σ → κ × α → σ} (d : Dict κ α) (k : κ)
    (hpr : ∀ s, ∀ item ∈ d.items, P s → P (step s item))
    (hhr : ∀ s a, (k, a) ∈ d.items → P s → view (step s (k, a)) = here a (view s))
    (haw : ∀ s, ∀ item ∈ d.items, item.1 ≠ k → P s → view (step s item) = view s) {s : σ} (hs : P s)
    : view (d.items.foldl step s) = ((d.get? k).map here).getD id (view s) := by
  obtain ⟨items, hds⟩ := d
  unfold get?
  simp only at hpr hhr haw ⊢
  induction items generalizing s with
  | nil => rfl
  | cons item items ih =>
    obtain ⟨hnew, htl⟩ := nodup_cons.mp hds
    have hrs := fun {s : σ} (hs : P s) => ih hs htl
      (fun s item hi => hpr s item (mem_cons_of_mem _ hi))
      (fun s a hi => hhr s a (mem_cons_of_mem _ hi))
      (fun s item hi => haw s item (mem_cons_of_mem _ hi))
    rw [foldl_cons, hrs (hpr s item mem_cons_self hs)]
    by_cases hkey : item.1 = k
    · -- the key does not come back in the rest of the items
      obtain ⟨k', a⟩ := item
      obtain rfl : k' = k := hkey
      have hgn : (items.find? fun item => item.1 = k') = none := by
        rw [find?_eq_none]
        intro item hitem hmt
        have hsame : item.1 = k' := by simpa using hmt
        exact hnew (mem_map.mpr ⟨item, hitem, hsame⟩)
      rw [hgn, find?_cons_of_pos (by simp)]
      exact hhr s a mem_cons_self hs
    · rw [haw s item mem_cons_self hkey hs, find?_cons_of_neg (by simpa using hkey)]

end Dict

end AgenticPkm
