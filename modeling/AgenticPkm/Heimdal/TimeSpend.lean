import AgenticPkm.Lib.Dict
import AgenticPkm.Lib.Text
import Mathlib.Algebra.BigOperators.Intervals
import Mathlib.Algebra.Order.BigOperators.Group.Finset

/-!
# Time spent on screen, over replayed frames

The frames of a batch are coalesced into spans, and a span is published under an identity taken
from the frames it covers.  The rollup counts one span an identity.

* `CutAlike` — passes agree on three linked frames in a row.
* `foldTimeSpend_replayed` — **then no interval is counted twice**.
-/

namespace AgenticPkm.Heimdal.TimeSpend

open List

/-- `ScreenFrame`, with what is derived from it; `dimensions` are in the order of `_span_key`, and
times are in microseconds. -/
structure ScreenFrame where
  observedAt : ℤ
  rawRef : String
  dimensions : List (String × String)
  activity : String
  contentIdentity : String
  deriving DecidableEq

/-- `ActivitySpan`, under its first frame. -/
structure ActivitySpan where
  frame : ScreenFrame
  observedAtEnd : ℤ
  rawRefs : List String
  contentIdentities : List String
  deriving DecidableEq

/-- `_OpenSpan` on a first frame. -/
def openSpan (frame : ScreenFrame) : ActivitySpan :=
  ⟨frame, frame.observedAt, [frame.rawRef], [frame.contentIdentity]⟩

def ActivitySpan.extend (span : ActivitySpan) (frame : ScreenFrame) : ActivitySpan where
  frame := span.frame
  observedAtEnd := frame.observedAt
  rawRefs := span.rawRefs ++ [frame.rawRef]
  contentIdentities := span.contentIdentities ++ [frame.contentIdentity]

/-- The exact duration, which `total_seconds` gives as the nearest float. -/
def ActivitySpan.duration (span : ActivitySpan) : ℤ := span.observedAtEnd - span.frame.observedAt

def coalescesInto (previous current : List (String × String)) : Bool :=
  previous = current && current.any fun dimension => strip dimension.2 ≠ ""

/-- One frame of the loop, with the closed spans and the open one. -/
def deriveStep (st : List ActivitySpan × Option ActivitySpan) (frame : ScreenFrame) :
    List ActivitySpan × Option ActivitySpan :=
  match st.2 with
  | none => (st.1, some (openSpan frame))
  | some span =>
      -- a frame that runs backwards opens a span too
      if coalescesInto span.frame.dimensions frame.dimensions ∧
          ¬frame.observedAt < span.observedAtEnd then (st.1, some (span.extend frame))
      else (st.1 ++ [span], some (openSpan frame))

/-- The closed spans, and the open one flushed. -/
def flush (st : List ActivitySpan × Option ActivitySpan) : List ActivitySpan := st.1 ++ st.2.toList

/-- `derive_activity_observations`: the spans of a batch. -/
def deriveActivityObservations (frames : List ScreenFrame) : List ActivitySpan :=
  flush (frames.foldl deriveStep ([], none))

def passSpans (batches : List (List ScreenFrame)) : List ActivitySpan :=
  batches.flatMap deriveActivityObservations

/-- `publish_observation`: what was published with the same payload is not written again. -/
def publishObservation (rows : List ActivitySpan) (span : ActivitySpan) : List ActivitySpan :=
  if span ∈ rows then rows else rows ++ [span]

def logOf (passes : List (List (List ScreenFrame))) : List ActivitySpan :=
  (passes.flatMap passSpans).foldl publishObservation []

/-- The rows that win, the last of each identity. -/
def winners (observationId : List String → String) (rows : List ActivitySpan) :
    Dict String ActivitySpan :=
  rows.foldl (fun d row => d.set (observationId row.contentIdentities) row) ∅

/-- `fold_time_spend`; no row has a correction, and a window that runs backwards is dropped. -/
def foldTimeSpend (observationId : List String → String) (rows : List ActivitySpan) :
    List ActivitySpan :=
  (winners observationId rows).values.filter fun span => 0 ≤ span.duration

def InOrder (frames : List ScreenFrame) : Prop :=
  frames.IsChain fun a b => a.observedAt ≤ b.observedAt

/-- The pass has a batch that ends after this number of frames. -/
def CutsAt (pass : List (List ScreenFrame)) (n : ℕ) : Prop :=
  ∃ done rest, pass = done ++ rest ∧ done.flatten.length = n

/-- The pass has a frame and the one before it in one batch, and they are of one activity. -/
def Linked (frames : List ScreenFrame) (pass : List (List ScreenFrame)) (n : ℕ) : Prop :=
  ¬ CutsAt pass n ∧ 0 < n ∧ ∃ prev frame, frames[n - 1]? = some prev ∧
    frames[n]? = some frame ∧ coalescesInto prev.dimensions frame.dimensions

/-- Of three frames in a row that a pass links, every pass links all or none. -/
def CutAlike (frames : List ScreenFrame) (passes : List (List (List ScreenFrame))) : Prop :=
  ∀ pass ∈ passes, ∀ replay ∈ passes, ∀ n, Linked frames pass n → Linked frames pass (n + 1) →
    (CutsAt replay n ↔ CutsAt replay (n + 1))

variable {observationId : List String → String} {rows l : List ActivitySpan} {span : ActivitySpan}
  {frames batch : List ScreenFrame} {pass replay : List (List ScreenFrame)}
  {link link' : ℕ → Prop} {lo hi lo' hi' : ℕ}

theorem mem_winners : ∀ item ∈ (winners observationId rows).items,
    item.2 ∈ rows ∧ observationId item.2.contentIdentities = item.1 := by
  refine foldlRecOn rows _ (motive := fun d : Dict String ActivitySpan => ∀ item ∈ d.items,
    item.2 ∈ rows ∧ observationId item.2.contentIdentities = item.1) nofun ?_
  rintro d ih row hr ⟨k, a⟩ hi
  rw [Dict.mem_items, Dict.get?_set] at hi
  split at hi
  · next hk =>
    cases hi
    exact ⟨hr, hk.symm⟩
  · exact ih _ (Dict.mem_items.mpr hi)

theorem nodup_foldTimeSpend : (foldTimeSpend observationId rows).Nodup := by
  refine Nodup.filter _ (Nodup.of_map (fun span => observationId span.contentIdentities) ?_)
  rw [Dict.values, map_map]
  exact (map_congr_left fun item hi => (mem_winners item hi).2) ▸ Dict.nodup_keys _

theorem mem_of_mem_published (h : span ∈ l.foldl publishObservation rows) :
    span ∈ rows ∨ span ∈ l := by
  induction l generalizing rows with
  | nil => exact .inl h
  | cons s l ih =>
    rcases ih h with h | h
    · unfold publishObservation at h
      split at h
      · exact .inl h
      · exact (mem_append.mp h).imp_right fun h => mem_cons.mpr (.inl (mem_singleton.mp h))
    · exact .inr (mem_cons_of_mem _ h)

/-! ### Runs of linked frames -/

/-- The frames from one number to another are linked, and nothing is linked to them. -/
structure IsRun (link : ℕ → Prop) (lo hi : ℕ) : Prop where
  le : lo ≤ hi
  linked : ∀ n, lo < n → n ≤ hi → link n
  start : ¬ link lo
  stop : ¬ link (hi + 1)

theorem IsRun.le_of_shared (h : IsRun link lo hi) (h' : IsRun link' lo' hi')
    (hagree : ∀ n, link n → link (n + 1) → (link' n ↔ link' (n + 1)))
    {n : ℕ} (hn : lo < n ∧ n ≤ hi) (hn' : lo' < n ∧ n ≤ hi') : lo' ≤ lo ∧ hi ≤ hi' := by
  have hl := h.linked
  have hl' := h'.linked
  constructor
  · by_contra hlt
    exact h'.start ((hagree lo' (hl _ (by omega) (by omega)) (hl _ (by omega) (by omega))).mpr
      (hl' _ (by omega) (by omega)))
  · by_contra hlt
    exact h'.stop ((hagree hi' (hl _ (by omega) (by omega)) (hl _ (by omega) (by omega))).mp
      (hl' _ (by omega) (by omega)))

/-- Where two links agree on every three frames in a row, runs that share two frames are one. -/
theorem IsRun.eq_of_shared (h : IsRun link lo hi) (h' : IsRun link' lo' hi')
    (hagree : ∀ n, link n → link (n + 1) → (link' n ↔ link' (n + 1)))
    (hagree' : ∀ n, link' n → link' (n + 1) → (link n ↔ link (n + 1)))
    {n : ℕ} (hn : lo < n ∧ n ≤ hi) (hn' : lo' < n ∧ n ≤ hi') : lo = lo' ∧ hi = hi' := by
  obtain ⟨hlo, hhi⟩ := h.le_of_shared h' hagree hn hn'
  obtain ⟨hlo', hhi'⟩ := h'.le_of_shared h hagree' hn' hn
  exact ⟨hlo'.antisymm hlo, hhi.antisymm hhi'⟩

/-- The span over the frames from one number to another. -/
def spanAt (f : ℕ → ScreenFrame) (lo hi : ℕ) : ActivitySpan where
  frame := f lo
  observedAtEnd := (f hi).observedAt
  rawRefs := (range' lo (hi + 1 - lo)).map fun n => (f n).rawRef
  contentIdentities := (range' lo (hi + 1 - lo)).map fun n => (f n).contentIdentity

variable {f : ℕ → ScreenFrame}

theorem openSpan_eq (n : ℕ) : openSpan (f n) = spanAt f n n := by
  simp [openSpan, spanAt]

theorem spanAt_extend (h : lo ≤ hi) :
    (spanAt f lo hi).extend (f (hi + 1)) = spanAt f lo (hi + 1) := by
  have hlen : hi + 1 + 1 - lo = hi + 1 - lo + 1 := by omega
  have hlast : lo + (hi + 1 - lo) = hi + 1 := by omega
  simp [spanAt, ActivitySpan.extend, hlen, range'_concat, hlast]

/-- The span is that of a run. -/
def RunSpan (f : ℕ → ScreenFrame) (link : ℕ → Prop) (span : ActivitySpan) : Prop :=
  ∃ lo hi, IsRun link lo hi ∧ span = spanAt f lo hi

/-- What holds in a batch after the frames up to `hi`: the closed spans are those of runs, and the
open one is over the linked frames that end there. -/
structure Scanned (f : ℕ → ScreenFrame) (link : ℕ → Prop) (hi : ℕ)
    (st : List ActivitySpan × Option ActivitySpan) : Prop where
  closed : ∀ span ∈ st.1, RunSpan f link span
  opened : ∃ lo ≤ hi, st.2 = some (spanAt f lo hi) ∧ ¬ link lo ∧
    (∀ n, lo < n → n ≤ hi → link n) ∧ (f lo).dimensions = (f hi).dimensions

theorem Scanned.deriveStep {st : List ActivitySpan × Option ActivitySpan} (h : Scanned f link hi st)
    (hle : (f hi).observedAt ≤ (f (hi + 1)).observedAt)
    (hlink : link (hi + 1) ↔ coalescesInto (f hi).dimensions (f (hi + 1)).dimensions) :
    Scanned f link (hi + 1) (deriveStep st (f (hi + 1))) := by
  obtain ⟨closed, current⟩ := st
  obtain ⟨lo, hlo, rfl, hstart, hlinked, hdim⟩ := h.opened
  have hkey : (spanAt f lo hi).frame.dimensions = (f hi).dimensions := hdim
  have hnot : ¬ (f (hi + 1)).observedAt < (spanAt f lo hi).observedAtEnd := not_lt.mpr hle
  rw [← hkey, ← and_iff_left (a := _ = true) hnot] at hlink
  unfold TimeSpend.deriveStep
  dsimp only
  split
  · next hl =>
    refine ⟨h.closed, lo, by omega, congrArg some (spanAt_extend hlo), hstart, fun n hn hnh => ?_,
      ?_⟩
    · rcases Nat.le_succ_iff.mp hnh with hnh | rfl
      · exact hlinked n hn hnh
      · exact hlink.mpr hl
    · have hsame := hl.1
      rw [coalescesInto, Bool.and_eq_true, decide_eq_true_eq] at hsame
      exact hsame.1
  · next hl =>
    rw [← hlink] at hl
    refine ⟨fun span hs => ?_, hi + 1, le_rfl, congrArg some (openSpan_eq _), hl, by omega, rfl⟩
    rcases mem_append.mp hs with hs | hs
    · exact h.closed span hs
    · exact ⟨lo, hi, ⟨hlo, hlinked, hstart, hl⟩, mem_singleton.mp hs⟩

/-- **The spans of a batch are those of its runs**, when nothing is linked over its ends. -/
theorem runSpan_of_derived (m : ℕ) (hget : ∀ k (hk : k < batch.length), batch[k] = f (m + k))
    (hle : ∀ k, k + 1 < batch.length → (f (m + k)).observedAt ≤ (f (m + k + 1)).observedAt)
    (hlink : ∀ k, k + 1 < batch.length →
      (link (m + k + 1) ↔ coalescesInto (f (m + k)).dimensions (f (m + k + 1)).dimensions))
    (hstart : ¬ link m) (hstop : ¬ link (m + batch.length)) :
    ∀ span ∈ deriveActivityObservations batch, RunSpan f link span := by
  have hscan : ∀ k, k < batch.length →
      Scanned f link (m + k) ((batch.take (k + 1)).foldl deriveStep ([], none)) := by
    intro k
    induction k with
    | zero =>
      intro hk
      rw [take_succ_eq_append_getElem hk, take_zero, nil_append, foldl_cons, foldl_nil, hget 0 hk]
      exact ⟨nofun, m, le_rfl, congrArg some (openSpan_eq _), hstart, by omega, rfl⟩
    | succ k ih =>
      intro hk
      rw [take_succ_eq_append_getElem hk, foldl_append, foldl_cons, foldl_nil, hget _ hk]
      exact (ih (by omega)).deriveStep (hle k hk) (hlink k hk)
  intro span hs
  rcases Nat.eq_zero_or_pos batch.length with hz | hpos
  · rw [length_eq_zero_iff.mp hz] at hs
    cases hs
  obtain ⟨hclosed, lo, hlo, hopen, hns, hlinked, -⟩ := hscan (batch.length - 1) (by omega)
  rw [Nat.sub_add_cancel hpos, take_length] at hopen hclosed
  rw [deriveActivityObservations, flush, hopen] at hs
  rcases mem_append.mp hs with hs | hs
  · exact hclosed span hs
  · refine ⟨lo, _, ⟨hlo, hlinked, hns, ?_⟩, by simpa using hs⟩
    have hend : m + (batch.length - 1) + 1 = m + batch.length := by omega
    rwa [hend]

/-! ### The runs of a pass -/

theorem not_cutsAt {done rest : List (List ScreenFrame)} {n : ℕ} (hlo : done.flatten.length < n)
    (hhi : n < done.flatten.length + batch.length) : ¬ CutsAt (done ++ batch :: rest) n := by
  rintro ⟨done', rest', heq, rfl⟩
  rcases append_eq_append_iff.mp heq with ⟨more, rfl, hrest⟩ | ⟨more, rfl, -⟩
  · cases more with
    | nil => simp at hlo
    | cons b more =>
      rw [cons_append, cons.injEq] at hrest
      obtain ⟨rfl, -⟩ := hrest
      simp at hhi
  · simp at hlo

theorem runSpan_of_mem {last : ScreenFrame} (hcut : pass.flatten = frames)
    (hmono : Monotone fun n => (frames.getD n last).observedAt) (hspan : span ∈ passSpans pass) :
    RunSpan (fun n => frames.getD n last) (Linked frames pass) span := by
  obtain ⟨batch, hb, hs⟩ := mem_flatMap.mp hspan
  obtain ⟨done, rest, rfl⟩ := append_of_mem hb
  rw [flatten_append, flatten_cons] at hcut
  have hlen : done.flatten.length + batch.length ≤ frames.length := by
    rw [← hcut, length_append, length_append]
    omega
  have hget : ∀ k (hk : k < batch.length),
      frames[done.flatten.length + k]? = some batch[k] := by
    intro k hk
    rw [← hcut, getElem?_append_right (by omega), Nat.add_sub_cancel_left,
      getElem?_append_left hk, getElem?_eq_getElem hk]
  refine runSpan_of_derived done.flatten.length (fun k hk => ?_) (fun k _ => hmono (by omega))
    (fun k hk => ?_) ?_ ?_ span hs
  · rw [getD_eq_getElem?_getD, hget k hk]
    rfl
  · have hno : ¬ CutsAt (done ++ batch :: rest) (done.flatten.length + k + 1) :=
      not_cutsAt (by omega) (by omega)
    have hprev := hget k (by omega)
    have hnext := hget (k + 1) hk
    rw [← Nat.add_assoc] at hnext
    simp only [Linked, getD_eq_getElem?_getD, Nat.add_sub_cancel, hprev, hnext, hno,
      Option.getD_some, Option.some.injEq, exists_and_left, exists_eq_left', not_false_eq_true,
      Nat.succ_pos, true_and]
  · exact fun h => h.1 ⟨done, _, rfl, rfl⟩
  · exact fun h => h.1 ⟨done ++ [batch], rest, by simp, by simp⟩

variable {passes : List (List (List ScreenFrame))}

/-- A span that is counted is that of a run of one of the passes. -/
theorem runSpan_of_counted {last : ScreenFrame} (hcut : ∀ pass ∈ passes, pass.flatten = frames)
    (hmono : Monotone fun n => (frames.getD n last).observedAt)
    (hs : span ∈ foldTimeSpend observationId (logOf passes)) :
    ∃ pass ∈ passes, RunSpan (fun n => frames.getD n last) (Linked frames pass) span := by
  obtain ⟨k, hi⟩ := Dict.mem_values.mp (mem_filter.mp hs).1
  obtain ⟨pass, hp, hs⟩ := mem_flatMap.mp
    ((mem_of_mem_published (mem_winners _ hi).1).resolve_left not_mem_nil)
  exact ⟨pass, hp, runSpan_of_mem (hcut pass hp) hmono hs⟩

theorem CutAlike.linked_iff (h : CutAlike frames passes) (hp : pass ∈ passes)
    (hr : replay ∈ passes) (n : ℕ) (hn : Linked frames pass n)
    (hn' : Linked frames pass (n + 1)) : Linked frames replay n ↔ Linked frames replay (n + 1) := by
  rw [Linked, and_iff_left hn.2, Linked, and_iff_left hn'.2]
  exact not_congr (h pass hp replay hr n hn hn')

theorem getElem?_length_cons (first : ScreenFrame) (frames : List ScreenFrame) :
    (first :: frames)[frames.length]? = some (frames.getLastD first) := by
  cases frames with
  | nil => rfl
  | cons a l => simp [getLast?_eq_getElem?, getLastD_eq_getLast?]

theorem monotone_observedAt {first : ScreenFrame} (hc : InOrder (first :: frames)) :
    Monotone fun n => ((first :: frames).getD n (frames.getLastD first)).observedAt := by
  refine monotone_nat_of_le_succ fun n => ?_
  simp only [getD_eq_getElem?_getD]
  rcases Nat.lt_or_ge n frames.length with hlt | hge
  · have hn : n + 1 < (first :: frames).length := by simpa using hlt
    rw [List.getElem?_eq_getElem hn, List.getElem?_eq_getElem (Nat.lt_of_succ_lt hn)]
    exact isChain_iff_getElem.mp hc n hn
  · -- past the end, the last frame again
    have hnone : (first :: frames)[n + 1]? = none := by simpa using hge
    rw [hnone]
    rcases Nat.eq_or_lt_of_le hge with rfl | hgt
    · rw [getElem?_length_cons]
      exact le_rfl
    · rw [List.getElem?_eq_none (by simpa using hgt)]

/-- **Passes that are cut alike count no interval twice**, and together no more than the time from
the first frame to the last, when durations are added up exactly. -/
theorem foldTimeSpend_replayed (observationId : List String → String) (first : ScreenFrame)
    (frames : List ScreenFrame) (hc : InOrder (first :: frames))
    (passes : List (List (List ScreenFrame)))
    (hpass : ∀ pass ∈ passes, pass.flatten = first :: frames)
    (halike : CutAlike (first :: frames) passes) :
    let counted := foldTimeSpend observationId (logOf passes)
    counted.Pairwise (fun a b =>
      min a.observedAtEnd b.observedAtEnd ≤ max a.frame.observedAt b.frame.observedAt) ∧
    (counted.map ActivitySpan.duration).sum ≤
      (frames.getLastD first).observedAt - first.observedAt := by
  classical
  intro counted
  let f := fun n => (first :: frames).getD n (frames.getLastD first)
  have hmono : Monotone fun n => (f n).observedAt := monotone_observedAt hc
  choose! pass hp lo hi hrun heq using
    fun span (hs : span ∈ counted) => runSpan_of_counted hpass hmono hs
  -- two spans over the same interval are over the same frames, so they are one
  have hdisj : ∀ a ∈ counted, ∀ b ∈ counted, a ≠ b →
      Disjoint (Finset.Ico (lo a) (hi a)) (Finset.Ico (lo b) (hi b)) := by
    intro a ha b hb hne
    rw [Finset.disjoint_left]
    intro n hna hnb
    rw [Finset.mem_Ico] at hna hnb
    obtain ⟨hlo, hhi⟩ := (hrun a ha).eq_of_shared (hrun b hb)
      (halike.linked_iff (hp a ha) (hp b hb)) (halike.linked_iff (hp b hb) (hp a ha))
      (n := n + 1) (by omega) (by omega)
    exact hne (by rw [heq a ha, heq b hb, hlo, hhi])
  have hdur : ∀ span ∈ counted, span.duration =
      ∑ n ∈ Finset.Ico (lo span) (hi span), ((f (n + 1)).observedAt - (f n).observedAt) := by
    intro span hs
    rw [Finset.sum_Ico_sub (fun n => (f n).observedAt) (hrun span hs).le]
    exact congrArg ActivitySpan.duration (heq span hs)
  constructor
  · refine nodup_foldTimeSpend.imp_of_mem fun {a b} ha hb hne => ?_
    have hd := hdisj a ha b hb hne
    rw [Finset.disjoint_left] at hd
    have hle : min (hi a) (hi b) ≤ max (lo a) (lo b) := by
      by_contra hlt
      have hlt := hd (a := max (lo a) (lo b)) (by simp at hlt ⊢; omega)
      simp at hlt
      omega
    have ht := hmono hle
    simp only [hmono.map_min, hmono.map_max] at ht
    rw [heq a ha, heq b hb]
    exact ht
  · rw [← List.sum_toFinset _ nodup_foldTimeSpend,
      Finset.sum_congr rfl fun span hs => hdur span (mem_toFinset.mp hs),
      ← Finset.sum_biUnion fun a ha b hb hne =>
        hdisj a (by simpa using ha) b (by simpa using hb) hne]
    have hsub : counted.toFinset.biUnion (fun span => Finset.Ico (lo span) (hi span)) ⊆
        Finset.range frames.length := by
      intro n hn
      obtain ⟨span, hs, hn⟩ := Finset.mem_biUnion.mp hn
      rw [Finset.mem_Ico] at hn
      obtain ⟨-, -, prev, frame, -, hf, -⟩ :=
        (hrun span (mem_toFinset.mp hs)).linked (n + 1) (by omega) (by omega)
      have hlt := (List.getElem?_eq_some_iff.mp hf).1
      simpa using hlt
    refine (Finset.sum_le_sum_of_subset_of_nonneg hsub fun n _ _ =>
      sub_nonneg.mpr (hmono (Nat.le_succ n))).trans ?_
    rw [Finset.sum_range_sub (fun n => (f n).observedAt)]
    simp only [f, getD_eq_getElem?_getD, getElem?_length_cons, Option.getD_some, getElem?_cons_zero,
      le_refl]

def sampleFrame (n : ℕ) : ScreenFrame := ⟨10 * n, "", [("app", "editor")], "", toString n⟩

/-- Frames that one pass has in one batch and the other alone are counted once. -/
theorem foldTimeSpend_twice :
    ((foldTimeSpend String.join (logOf [[[sampleFrame 0, sampleFrame 1]],
      [[sampleFrame 0], [sampleFrame 1]]])).map ActivitySpan.duration).sum ≤ 10 := by
  refine (foldTimeSpend_replayed String.join (sampleFrame 0) [sampleFrame 1]
    (isChain_cons_cons.mpr ⟨by decide, .singleton _⟩) _ (by decide) ?_).2
  -- there are no three frames
  rintro pass - replay - n ⟨-, hpos, -⟩ ⟨-, -, prev, frame, -, hf, -⟩
  have hlt := (List.getElem?_eq_some_iff.mp hf).1
  simp at hlt
  omega

/-- Cut after its second frame, a span of twenty seconds is counted for thirty. -/
theorem foldTimeSpend_recut :
    ((foldTimeSpend String.join (logOf [[[sampleFrame 0, sampleFrame 1, sampleFrame 2]],
      [[sampleFrame 0, sampleFrame 1], [sampleFrame 2]]])).map ActivitySpan.duration).sum = 30 := by
  decide +kernel

end AgenticPkm.Heimdal.TimeSpend
