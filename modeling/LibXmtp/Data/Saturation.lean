import Mathlib.Data.List.Induction
import Mathlib.Data.List.Perm.Subperm

/-! Items that are applied to a state as soon as they are ready, and can only become ready as
others are applied. Whatever order they are tried in, the same ones are left over. -/

universe u v

namespace LibXmtp.Data

structure Saturation (σ : Type u) (α : Type v) where
  ready : σ → α → Prop
  apply : σ → α → σ
  apply_comm : ∀ s a b, apply (apply s a) b = apply (apply s b) a
  ready_apply : ∀ s a b, ready s a → ready (apply s b) a

namespace Saturation

variable {σ : Type u} {α : Type v} (S : Saturation σ α) {s : σ} {a : α}
  {as bs out out' left left' : List α}

def applyAll (s : σ) (as : List α) : σ := as.foldl S.apply s

def Sound (s : σ) (as : List α) : Prop :=
  ∀ before a after, as = before ++ a :: after → S.ready (S.applyAll s before) a

def Saturated (s : σ) (left : List α) : Prop := ∀ a ∈ left, ¬S.ready s a

@[simp] theorem applyAll_nil : S.applyAll s [] = s := rfl

@[simp] theorem applyAll_append : S.applyAll s (as ++ bs) = S.applyAll (S.applyAll s as) bs :=
  List.foldl_append

@[simp] theorem applyAll_cons : S.applyAll s (a :: as) = S.applyAll (S.apply s a) as := rfl

theorem applyAll_perm (h : as.Perm bs) : S.applyAll s as = S.applyAll s bs :=
  h.foldl_eq' (fun a _ b _ s => (S.apply_comm s a b)) s

theorem ready_applyAll (h : S.ready s a) : S.ready (S.applyAll s as) a := by
  induction as generalizing s with
  | nil => exact h
  | cons b as ih => exact ih (S.ready_apply _ _ _ h)

theorem sound_nil : S.Sound s [] := by
  intro before a after h
  simp at h

theorem sound_concat : S.Sound s (as ++ [a]) ↔ S.Sound s as ∧ S.ready (S.applyAll s as) a := by
  constructor
  · intro h
    constructor
    · rintro before b after rfl
      exact h before b (after ++ [a]) (by simp)
    · exact h as a [] rfl
  · rintro ⟨hs, ha⟩ before b after h
    -- the last item of the list is either `b` itself or the last one of `after`
    rcases List.eq_nil_or_concat after with rfl | ⟨after, c, rfl⟩
    · obtain ⟨rfl, hb⟩ := List.append_inj' h rfl
      cases hb
      exact ha
    · rw [List.concat_eq_append, ← List.cons_append, ← List.append_assoc] at h
      exact hs before b after (List.append_inj' h rfl).1

variable {S}

theorem Sound.subperm (hs : S.Sound s out) (hleft : S.Saturated (S.applyAll s out') left')
    (hsub : out.Subperm (out' ++ left')) : out.Subperm out' := by
  induction out using List.reverseRecOn with
  | nil => exact List.nil_subperm
  | append_singleton as a ih =>
    obtain ⟨hs, ha⟩ := S.sound_concat.mp hs
    obtain ⟨as', has', hsublist⟩ := ih hs ((List.sublist_append_left as [a]).subperm.trans hsub)
    obtain ⟨rest, hrest⟩ := hsublist.exists_perm_append
    replace hrest := hrest.trans (has'.append_right rest)
    have hmem : [a].Subperm (rest ++ left') := by
      apply (List.subperm_append_left as).mp
      rw [← List.append_assoc]
      exact hsub.trans (hrest.append_right left').subperm
    have hnot : a ∉ left' := by
      intro hmem
      apply hleft a hmem
      rw [S.applyAll_perm hrest, applyAll_append]
      exact S.ready_applyAll ha
    have hin : a ∈ rest :=
      (List.mem_append.mp (hmem.subset (List.mem_singleton_self a))).resolve_right hnot
    apply List.Subperm.trans _ hrest.symm.subperm
    exact (List.subperm_append_left as).mpr (List.singleton_subperm_iff.mpr hin)

theorem Sound.unique (hs : S.Sound s out) (hs' : S.Sound s out')
    (hleft : S.Saturated (S.applyAll s out) left) (hleft' : S.Saturated (S.applyAll s out') left')
    (h : (out ++ left).Perm (out' ++ left')) : out.Perm out' ∧ left.Perm left' := by
  have hsub := hs.subperm hleft' ((List.sublist_append_left out left).subperm.trans h.subperm)
  have hsub' := hs'.subperm hleft ((List.sublist_append_left out' left').subperm.trans h.symm.subperm)
  have hperm := hsub.antisymm hsub'
  exact ⟨hperm, (List.perm_append_left_iff out').mp ((hperm.append_right left).symm.trans h)⟩

end Saturation

end LibXmtp.Data
