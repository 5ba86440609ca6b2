/-
Lists without repetitions.

* `distinct` — the items of a list, each once, where it first stands;
* `mem_distinct`, `nodup_distinct` — no item is lost and none comes twice.
-/

namespace TypeEnforcement

/-- The items of a list, each once, in the order in which they first stand. -/
def distinct {α : Type} [DecidableEq α] (items : List α) : List α :=
  items.foldl (fun kept item => if item ∈ kept then kept else kept ++ [item]) []

section

variable {α : Type} [DecidableEq α]

theorem mem_foldl_distinct {items kept : List α} {x : α} :
    x ∈ items.foldl (fun kept item => if item ∈ kept then kept else kept ++ [item]) kept ↔
      x ∈ kept ∨ x ∈ items := by
  induction items generalizing kept with
  | nil => simp
  | cons item rest ih =>
    rw [List.foldl_cons, ih]
    split
    · rename_i h
      simp only [List.mem_cons]
      constructor
      · rintro (hk | hr)
        · exact .inl hk
        · exact .inr (.inr hr)
      · rintro (hk | rfl | hr)
        · exact .inl hk
        · exact .inl h
        · exact .inr hr
    · simp [or_assoc]

theorem nodup_foldl_distinct {items kept : List α} (h : kept.Nodup) :
    (items.foldl (fun kept item => if item ∈ kept then kept else kept ++ [item]) kept).Nodup := by
  induction items generalizing kept with
  | nil => exact h
  | cons item rest ih =>
    rw [List.foldl_cons]
    split
    · exact ih h
    · rename_i hne
      refine ih (List.nodup_append.2 ⟨h, by simp, ?_⟩)
      intro a ha b hb hab
      have : b = item := by simpa using hb
      exact hne (this ▸ hab ▸ ha)

@[simp] theorem mem_distinct {items : List α} {x : α} : x ∈ distinct items ↔ x ∈ items := by
  simp [distinct, mem_foldl_distinct]

theorem nodup_distinct (items : List α) : (distinct items).Nodup :=
  nodup_foldl_distinct List.nodup_nil

end

end TypeEnforcement
