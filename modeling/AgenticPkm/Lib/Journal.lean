import Mathlib.Data.List.Infix

/-!
# Sequences of writes and where they stop

A program makes its result durable by a list of writes, one after the other, and a crash
leaves the state after some prefix of the list.  What is looked at, through any function
`look` of the state, is afterwards what one of the writes put there, or what was there
before.
-/

namespace AgenticPkm.Journal

open List

variable {σ ω α : Type} {write : σ → ω → σ}

/-- The state after some writes. -/
def after (write : σ → ω → σ) (s : σ) (ws : List ω) : σ := ws.foldl write s

@[simp] theorem after_nil (s : σ) : after write s [] = s := rfl

theorem after_append (s : σ) (ws ws' : List ω) :
    after write s (ws ++ ws') = after write (after write s ws) ws' :=
  foldl_append

@[simp] theorem after_concat (s : σ) (ws : List ω) (w : ω) :
    after write s (ws ++ [w]) = write (after write s ws) w :=
  after_append s ws [w]

variable {ws : List ω}

/-- **What is seen was written, or was there before.**  `wrote w a` says that the write
`w` puts `a` where `look` looks. -/
theorem look_after_cases (look : σ → α) (wr : ω → α → Prop)
    (hwr : ∀ w ∈ ws, ∀ s, wr w (look (write s w)) ∨ look (write s w) = look s) (s : σ) :
    (∃ w ∈ ws, wr w (look (after write s ws))) ∨ look (after write s ws) = look s := by
  induction ws using List.reverseRecOn with
  | nil => exact .inr rfl
  | append_singleton ws w ih =>
    rw [after_concat]
    rcases hwr w (by simp) (after write s ws) with hw | hsame
    · exact .inl ⟨w, by simp, hw⟩
    · rw [hsame]
      have hb : ∀ w ∈ ws, ∀ s, wr w (look (write s w)) ∨ look (write s w) = look s :=
        fun w' hw' => hwr w' (mem_append_left _ hw')
      rcases ih hb with ⟨w', hw', hwt⟩ | ho
      · exact .inl ⟨w', mem_append_left _ hw', hwt⟩
      · exact .inr ho

theorem look_after_of_frame (look : σ → α) (hf : ∀ w ∈ ws, ∀ s, look (write s w) = look s)
    (s : σ) : look (after write s ws) = look s := by
  have hcas := look_after_cases look (fun _ _ => False) (fun w hw s => .inr (hf w hw s)) s
  simpa using hcas

theorem look_after_eq (look : σ → α) {a : α} {w : ω} (hw : w ∈ ws) (hwr : ∀ s, look (write s w) = a)
    (hk : ∀ w ∈ ws, ∀ s, look (write s w) = a ∨ look (write s w) = look s) (s : σ) :
    look (after write s ws) = a := by
  induction ws using List.reverseRecOn with
  | nil => cases hw
  | append_singleton ws w' ih =>
    rw [after_concat]
    rcases hk w' (by simp) (after write s ws) with ha | hsame
    · exact ha
    · rcases mem_append.mp hw with hb | hl
      · rw [hsame]
        exact ih hb fun w'' hw'' => hk w'' (mem_append_left _ hw'')
      · rw [← mem_singleton.mp hl]
        exact hwr _

theorem prefix_append_cases {l l' : List ω} (h : ws <+: l ++ l') :
    ws <+: l ∨ ∃ ws', ws' <+: l' ∧ ws = l ++ ws' := by
  rcases prefix_or_prefix_of_prefix h (List.prefix_append l l') with hf | ⟨ws', rfl⟩
  · exact .inl hf
  · exact .inr ⟨ws', (prefix_append_right_inj l).mp h, rfl⟩

end AgenticPkm.Journal
