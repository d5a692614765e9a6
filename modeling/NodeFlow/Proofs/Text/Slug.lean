import NodeFlow.Proofs.Text.OneLine
import NodeFlow.Text.Fallback
import NodeFlow.Text.Slug

/-!
# Characters of slugs

A slug has no characters but lower-case letters, digits and underscores (`slugText_slug`).  In
particular it is on one line.
-/

namespace NodeFlow.Text

variable {s t : String} {c : Char}

theorem mem_markGaps {inGap : Bool} {cs : List Char} (h : c ∈ markGaps inGap cs) :
    isSlugChar c = true ∨ c = '_' := by
  induction cs generalizing inGap with
  | nil => cases h
  | cons d rest ih =>
    rw [markGaps] at h
    split at h
    · next hd =>
      rcases List.mem_cons.1 h with rfl | h
      · exact .inl hd
      · exact ih h
    · split at h
      · exact ih h
      · rcases List.mem_cons.1 h with rfl | h
        · exact .inr rfl
        · exact ih h

theorem mem_slug (h : c ∈ (slug s).toList) : isSlugChar c = true ∨ c = '_' := by
  rw [slug, String.toList_ofList] at h
  exact mem_markGaps (mem_of_mem_stripOf h)

/-! ### Texts with no other characters -/

/-- A text of lower-case letters, digits and underscores. -/
def SlugText (s : String) : Prop := ∀ c ∈ s.toList, isSlugChar c = true ∨ c = '_'

instance : DecidablePred SlugText := fun s =>
  decidable_of_iff (s.toList.all (fun c => isSlugChar c || c == '_') = true) (by simp [SlugText])

theorem slugText_slug (s : String) : SlugText (slug s) := fun _ h => mem_slug h

theorem SlugText.append (hs : SlugText s) (ht : SlugText t) : SlugText (s ++ t) := by
  unfold SlugText
  rw [String.toList_append]
  exact List.forall_mem_append.2 ⟨hs, ht⟩

theorem SlugText.orElse (hs : SlugText s) (ht : SlugText t) : SlugText (orElse s t) := by
  rw [Text.orElse]
  split
  · exact ht
  · exact hs

theorem SlugText.oneLine (h : SlugText s) : OneLine s := by
  intro hmem
  rcases h '\n' hmem with h | h
  · exact absurd h (by decide)
  · exact absurd h (by decide)

end NodeFlow.Text
