import Mathlib.Tactic

/-!
# Lists read page by page

A server hands out a list in pages: some elements from a position on, whether there are more,
and a cursor for the position after them.  The pages may have any sizes and the elements may be
shown as views of the real ones, related to them by `R`.
-/

namespace AgenticPkm

open List

structure PageInfo where
  hasNextPage : Bool := false
  endCursor : Option String := none
  deriving DecidableEq, Repr

/-- Elements with the page information of the last page they came in. -/
structure Connection (α : Type) where
  nodes : List α
  pageInfo : PageInfo := {}
  deriving DecidableEq, Repr

namespace Connection

variable {α β : Type}

/-- What was read so far, with one page more. -/
def extend (target page : Connection α) : Connection α :=
  { nodes := target.nodes ++ page.nodes, pageInfo := page.pageInfo }

/-- A truthful page of `xs` from `start`; `position` says what a cursor stands for. -/
structure IsPage (R : α → β → Prop) (xs : List β) (position : String → ℕ) (start : ℕ)
    (page : Connection α) : Prop where
  slice : List.Forall₂ R page.nodes ((xs.drop start).take page.nodes.length)
  more : page.pageInfo.hasNextPage = true ↔ start + page.nodes.length < xs.length
  cursor : page.pageInfo.hasNextPage = true → ∀ c, page.pageInfo.endCursor = some c →
    position c = start + page.nodes.length

variable {R : α → β → Prop} {xs : List β} {position : String → ℕ} {target : Connection α}
  {page : Connection α}

theorem IsPage.extend (h : IsPage R xs position 0 target)
    (hp : IsPage R xs position target.nodes.length page) :
    IsPage R xs position 0 (target.extend page) where
  slice := by
    have ha := rel_append h.slice hp.slice
    simp only [Connection.extend, length_append, drop_zero] at ha ⊢
    rwa [take_add]
  more := by
    simp only [Connection.extend, length_append, Nat.zero_add]
    exact hp.more
  cursor hm c hc := by
    simp only [Connection.extend, length_append, Nat.zero_add]
    exact hp.cursor hm c hc

/-- **Without a next page, everything was read.** -/
theorem IsPage.complete (h : IsPage R xs position 0 target)
    (hl : target.pageInfo.hasNextPage = false) : List.Forall₂ R target.nodes xs := by
  have hlen : xs.length ≤ target.nodes.length := by
    by_contra hlt
    rw [Nat.not_le, ← Nat.zero_add target.nodes.length] at hlt
    rw [h.more.2 hlt] at hl
    cases hl
  have hs := h.slice
  rwa [drop_zero, take_of_length_le hlen] at hs

theorem IsPage.complete_eq {xs : List α} (h : IsPage Eq xs position 0 target)
    (hl : target.pageInfo.hasNextPage = false) : target.nodes = xs :=
  forall₂_eq_eq_eq ▸ h.complete hl

/-! ### Reading on -/

/-- The position a reader asks for: that of its cursor, or the start. -/
def startOf (position : String → ℕ) : Option String → ℕ
  | none => 0
  | some c => position c

/-- The cursor to read on with, if there is a next page. -/
def pending (target : Connection α) : Option String :=
  if target.pageInfo.hasNextPage then target.pageInfo.endCursor else none

/-- What was read so far with the next page, if there is one. -/
def merge (target page : Connection α) : Connection α :=
  if target.pageInfo.hasNextPage then target.extend page else target

theorem IsPage.merge (h : IsPage R xs position 0 target)
    (hcr : target.pageInfo.hasNextPage → target.pageInfo.endCursor ≠ none)
    (hp : IsPage R xs position (startOf position target.pending) page) :
    IsPage R xs position 0 (target.merge page) := by
  cases hm : target.pageInfo.hasNextPage with
  | false =>
    simp only [Connection.merge, hm, Bool.false_eq_true, if_false]
    exact h
  | true =>
    obtain ⟨c, hc⟩ := Option.ne_none_iff_exists'.1 (hcr hm)
    have hpos := h.cursor hm c hc
    rw [Nat.zero_add] at hpos
    simp only [pending, hm, if_true, hc, startOf, hpos] at hp
    simp only [Connection.merge, hm, if_true]
    exact h.extend hp

/-! ### A server -/

/-- A server of pages of one size, whose cursors are as long as their position. -/
def serve (size : ℕ) (xs : List α) (cursor : Option String) : Connection α :=
  let start := startOf String.length cursor
  let nodes := (xs.drop start).take size
  { nodes
    pageInfo :=
      { hasNextPage := start + nodes.length < xs.length
        endCursor := some (String.ofList (List.replicate (start + nodes.length) 'x')) } }

theorem isPage_serve (size : ℕ) (xs : List α) (cursor : Option String) :
    IsPage Eq xs String.length (startOf String.length cursor) (serve size xs cursor) where
  slice := by
    rw [forall₂_eq_eq_eq]
    simp [serve, length_take]
  more := by simp [serve]
  cursor _ c hc := by
    cases hc
    simp [serve]

theorem isPage_serve_map (size : ℕ) (xs : List β) (cursor : Option String) {view : β → α}
    (hv : ∀ x ∈ xs, R (view x) x) :
    IsPage R xs String.length (startOf String.length cursor)
      { nodes := (serve size xs cursor).nodes.map view
        pageInfo := (serve size xs cursor).pageInfo } where
  slice := by
    have hs := (isPage_serve size xs cursor).slice
    rw [forall₂_eq_eq_eq] at hs
    rw [length_map, ← hs, forall₂_map_left_iff, forall₂_same]
    intro x hx
    rw [hs] at hx
    exact hv x (drop_subset _ _ (take_subset _ _ hx))
  more := by
    rw [length_map]
    exact (isPage_serve size xs cursor).more
  cursor := by
    rw [length_map]
    exact (isPage_serve size xs cursor).cursor

end Connection
end AgenticPkm
