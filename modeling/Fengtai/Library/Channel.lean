import Mathlib.Tactic

set_option autoImplicit false

/-! A channel that loses nothing and keeps the order. -/

namespace Fengtai.Library

/-- What has gone in, of which what has come out is the first part. -/
structure Channel (α : Type*) where
  accepted : List α
  delivered : List α
  inOrder : delivered <+: accepted

namespace Channel

variable {α : Type*} {c c' : Channel α}

inductive Step (c c' : Channel α) : Prop
  | accept (x : α) (accepted : c'.accepted = c.accepted ++ [x]) (delivered : c'.delivered = c.delivered)
  | deliver (x : α) (accepted : c'.accepted = c.accepted) (delivered : c'.delivered = c.delivered ++ [x])

abbrev Reaches : Channel α → Channel α → Prop := Relation.ReflTransGen Step

lemma reaches_accepting (more : List α) (ha : c'.accepted = c.accepted ++ more)
    (hd : c'.delivered = c.delivered) : c.Reaches c' := by
  induction more using List.reverseRecOn generalizing c' with
  | nil =>
    obtain ⟨accepted, delivered, inOrder⟩ := c'
    obtain rfl : accepted = c.accepted := by simpa using ha
    obtain rfl : delivered = c.delivered := hd
    exact .refl
  | append_singleton more x ih =>
    have hle : c.delivered <+: c.accepted ++ more := c.inOrder.trans (List.prefix_append _ _)
    have hmore : c.Reaches ⟨c.accepted ++ more, c.delivered, hle⟩ := ih rfl rfl
    exact hmore.tail (.accept x (by rw [ha, List.append_assoc]) hd)

lemma reaches_delivering (more : List α) (ha : c'.accepted = c.accepted)
    (hd : c'.delivered = c.delivered ++ more) : c.Reaches c' := by
  induction more using List.reverseRecOn generalizing c' with
  | nil => exact reaches_accepting [] (by simpa using ha) (by simpa using hd)
  | append_singleton more x ih =>
    have hle : c.delivered ++ more <+: c.accepted := by
      rw [← ha]
      refine List.IsPrefix.trans ?_ c'.inOrder
      rw [hd, ← List.append_assoc]
      exact List.prefix_append _ _
    have hmore : c.Reaches ⟨c.accepted, c.delivered ++ more, hle⟩ := ih rfl rfl
    exact hmore.tail (.deliver x ha (by rw [hd, List.append_assoc]))

lemma reaches_of_prefix (ha : c.accepted <+: c'.accepted) (hd : c.delivered <+: c'.delivered) :
    c.Reaches c' := by
  obtain ⟨entered, hentered⟩ := ha
  obtain ⟨left, hleft⟩ := hd
  have hle : c.delivered <+: c'.accepted := (List.prefix_append _ _).trans (hleft ▸ c'.inOrder)
  have haccepted : c.Reaches ⟨c'.accepted, c.delivered, hle⟩ := reaches_accepting entered hentered.symm rfl
  exact haccepted.trans (reaches_delivering left rfl hleft.symm)

end Channel

end Fengtai.Library
