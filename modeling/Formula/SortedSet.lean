/-!
# Sorted sets

A finite set is the sorted list of its members, so two sets are equal exactly when they have the
same members.
-/

namespace Formula

structure SortedSet (α : Type) [LT α] where
  toList : List α
  sorted : toList.Pairwise (· < ·)
deriving DecidableEq

namespace SortedSet

variable {α : Type} [LT α]

def contains [BEq α] (set : SortedSet α) (member : α) : Bool :=
  set.toList.elem member

/-! ## Building a set -/

variable [DecidableLT α]

def insertInto (new : α) : List α → List α
  | [] => [new]
  | first :: rest =>
      if new < first then new :: first :: rest
      else if first < new then first :: insertInto new rest
      else first :: rest

theorem insertInto_of_forall_lt {new : α} {members : List α}
    (h : ∀ member ∈ members, new < member) : insertInto new members = new :: members := by
  cases members with
  | nil => rfl
  | cons first rest => simp [insertInto, h]

theorem foldr_insertInto_of_sorted {members : List α} (h : members.Pairwise (· < ·)) :
    members.foldr insertInto [] = members := by
  induction members with
  | nil => rfl
  | cons first rest ih =>
      rw [List.pairwise_cons] at h
      rw [List.foldr_cons, ih h.2, insertInto_of_forall_lt h.1]

variable [Std.Trichotomous (fun left right : α => left < right)]

theorem mem_insertInto {new member : α} {members : List α} :
    member ∈ insertInto new members ↔ member = new ∨ member ∈ members := by
  induction members with
  | nil => simp [insertInto]
  | cons first rest ih =>
      unfold insertInto
      split
      · simp
      · split
        · simp [ih, or_left_comm]
        · rename_i notBefore notAfter
          simp [Std.Trichotomous.trichotomous new first notBefore notAfter]

variable [Trans (fun left right : α => left < right) (fun left right : α => left < right)
  (fun left right : α => left < right)]

theorem sorted_insertInto (new : α) {members : List α} (h : members.Pairwise (· < ·)) :
    (insertInto new members).Pairwise (· < ·) := by
  induction members with
  | nil => simp [insertInto]
  | cons first rest ih =>
      rw [List.pairwise_cons] at h
      unfold insertInto
      split
      · rename_i before
        refine List.pairwise_cons.mpr ⟨fun member hmember => ?_, List.pairwise_cons.mpr h⟩
        rcases List.mem_cons.mp hmember with rfl | later
        · exact before
        · exact Std.lt_trans before (h.1 member later)
      · split
        · rename_i after
          refine List.pairwise_cons.mpr ⟨fun member hmember => ?_, ih h.2⟩
          rcases mem_insertInto.mp hmember with rfl | old
          · exact after
          · exact h.1 member old
        · exact List.pairwise_cons.mpr h

theorem sorted_foldr (members : List α) :
    (members.foldr insertInto []).Pairwise (· < ·) := by
  induction members with
  | nil => simp
  | cons first rest ih => exact sorted_insertInto first ih

def ofList (members : List α) : SortedSet α :=
  ⟨members.foldr insertInto [], sorted_foldr members⟩

instance : Std.Trichotomous (fun left right : String => left < right) :=
  ⟨fun _ _ notBefore notAfter =>
    String.le_antisymm (String.not_lt.mp notAfter) (String.not_lt.mp notBefore)⟩

instance : Trans (fun left right : String => left < right)
    (fun left right : String => left < right) (fun left right : String => left < right) :=
  ⟨String.lt_trans⟩

theorem ofList_toList (set : SortedSet α) : ofList set.toList = set := by
  obtain ⟨members, sorted⟩ := set
  simp only [ofList, foldr_insertInto_of_sorted sorted]

theorem mem_toList_ofList {member : α} {members : List α} :
    member ∈ (ofList members).toList ↔ member ∈ members := by
  unfold ofList
  induction members with
  | nil => simp
  | cons first rest ih => simp_all [mem_insertInto]

end SortedSet

end Formula
