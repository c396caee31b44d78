import ViewModifiers.Proofs.Element.Tree

/-!
# Removing elements from trees

Where the identities of a tree are distinct, every identity below the topmost one
can be detached.  What is taken out is the element that is found under it, and
what stays has the other identities in their order, each with its tag, its
attributes and its other children.
-/

namespace ViewModifiers
namespace Element

/-!
## Finding by membership
-/

mutual

theorem exists_find?_of_mem_ids {target : ElementId} {e : Element} (h : target ∈ e.ids) :
    ∃ found, e.find? target = some found := by
  cases e with
  | mk id tag attributes children =>
      rw [ids] at h
      rw [find?]
      split
      · exact ⟨_, rfl⟩
      · next hne =>
          exact exists_findIn?_of_mem ((List.mem_cons.mp h).resolve_left (Ne.symm hne))

theorem exists_findIn?_of_mem {target : ElementId} {es : List Element}
    (h : target ∈ idsOfList es) : ∃ found, findIn? target es = some found := by
  cases es with
  | nil => cases h
  | cons e rest =>
      rw [idsOfList] at h
      rw [findIn?]
      cases hfind : e.find? target with
      | some found => exact ⟨found, rfl⟩
      | none =>
          have hnot : target ∉ e.ids := by
            intro hmem
            rcases exists_find?_of_mem_ids hmem with ⟨found, hfound⟩
            rw [hfind] at hfound
            cases hfound
          exact exists_findIn?_of_mem ((List.mem_append.mp h).resolve_left hnot)

end

mutual

theorem ids_modify (target : ElementId) (f : Dictionary RawValue → Dictionary RawValue)
    (e : Element) : (e.modify target f).ids = e.ids := by
  cases e with
  | mk id tag attributes children =>
      rw [modify, ids, ids, idsOfList_modifyList target f children]

theorem idsOfList_modifyList (target : ElementId)
    (f : Dictionary RawValue → Dictionary RawValue) (es : List Element) :
    idsOfList (modifyList target f es) = idsOfList es := by
  cases es with
  | nil => rfl
  | cons e rest =>
      rw [modifyList, idsOfList, idsOfList, ids_modify target f e,
        idsOfList_modifyList target f rest]

end

/-!
## What is taken out
-/

mutual

theorem exists_detach?_of_mem {target : ElementId} {e : Element}
    (h : target ∈ idsOfList e.children) : ∃ parts, e.detach? target = some parts := by
  cases e with
  | mk id tag attributes children =>
      rw [detach?]
      split
      · exact ⟨_, rfl⟩
      · next hnone =>
          rcases exists_detachIn?_of_mem (takeFirst?_eq_none hnone) h with ⟨parts, hparts⟩
          rw [hparts]
          exact ⟨_, rfl⟩

theorem exists_detachIn?_of_mem {target : ElementId} {es : List Element}
    (hne : ∀ e ∈ es, e.id ≠ target) (h : target ∈ idsOfList es) :
    ∃ parts, detachIn? target es = some parts := by
  cases es with
  | nil => cases h
  | cons e rest =>
      rw [idsOfList] at h
      rw [detachIn?]
      cases hdetach : e.detach? target with
      | some parts => exact ⟨_, rfl⟩
      | none =>
          have hnot : target ∉ e.ids := by
            intro hmem
            have hbelow : target ∈ idsOfList e.children := by
              cases e with
              | mk id tag attributes children =>
                  rw [ids] at hmem
                  exact (List.mem_cons.mp hmem).resolve_left
                    (Ne.symm (hne _ List.mem_cons_self))
            rcases exists_detach?_of_mem hbelow with ⟨parts, hparts⟩
            rw [hdetach] at hparts
            cases hparts
          have hrest : ∀ c ∈ rest, c.id ≠ target := fun c hc => hne c (List.mem_cons_of_mem e hc)
          rcases exists_detachIn?_of_mem hrest ((List.mem_append.mp h).resolve_left hnot) with
            ⟨parts, hparts⟩
          dsimp only
          rw [hparts]
          exact ⟨_, rfl⟩

end

theorem findIn?_of_mem {target : ElementId} {es : List Element} {e found : Element}
    (hids : (idsOfList es).Nodup) (he : e ∈ es) (h : e.find? target = some found) :
    findIn? target es = some found := by
  induction es with
  | nil => cases he
  | cons first rest ih =>
      rw [idsOfList] at hids
      have hparts := List.nodup_append.mp hids
      rw [findIn?]
      rcases List.mem_cons.mp he with rfl | he
      · rw [h]
      · have hrest := ih hparts.2.1 he
        have hfirst : target ∉ first.ids := by
          intro hmem
          exact hparts.2.2 target hmem target (mem_idsOfList_of_findIn? hrest) rfl
        rw [find?_eq_none hfirst]
        exact hrest

theorem find?_id (e : Element) : e.find? e.id = some e := by
  cases e
  rw [find?, if_pos rfl]

mutual

theorem find?_of_detach? {target : ElementId} {e removed left : Element}
    (hids : e.ids.Nodup) (h : e.detach? target = some (removed, left)) :
    e.find? target = some removed := by
  cases e with
  | mk id tag attributes children =>
      rw [ids] at hids
      have hown := List.nodup_cons.mp hids
      rw [detach?] at h
      rw [find?]
      split at h
      · next _ rest htake =>
          cases h
          rcases takeFirst?_eq_some htake with ⟨front, back, rfl, -, rfl⟩
          have hmem : removed ∈ front ++ removed :: back :=
            List.mem_append_right front List.mem_cons_self
          have hne : id ≠ removed.id := by
            rintro rfl
            exact hown.1 (id_mem_idsOfList hmem)
          rw [if_neg hne]
          exact findIn?_of_mem hown.2 hmem removed.find?_id
      · rcases Option.map_eq_some_iff.mp h with ⟨⟨found, changed⟩, hfound, hpair⟩
        cases hpair
        have hfind := findIn?_of_detachIn? hown.2 hfound
        have hne : id ≠ target := by
          rintro rfl
          exact hown.1 (mem_idsOfList_of_findIn? hfind)
        rw [if_neg hne]
        exact hfind

theorem findIn?_of_detachIn? {target : ElementId} {es left : List Element} {removed : Element}
    (hids : (idsOfList es).Nodup) (h : detachIn? target es = some (removed, left)) :
    findIn? target es = some removed := by
  cases es with
  | nil => cases h
  | cons e rest =>
      rw [idsOfList] at hids
      have hparts := List.nodup_append.mp hids
      rw [detachIn?] at h
      rw [findIn?]
      split at h
      · next _ changed heq =>
          cases h
          rw [find?_of_detach? hparts.1 heq]
      · rcases Option.map_eq_some_iff.mp h with ⟨⟨found, changed⟩, hfound, hpair⟩
        cases hpair
        have hrest := findIn?_of_detachIn? hparts.2.1 hfound
        have he : target ∉ e.ids := by
          intro he
          exact hparts.2.2 target he target (mem_idsOfList_of_findIn? hrest) rfl
        rw [find?_eq_none he]
        exact hrest

end

/-!
## What stays
-/

mutual

theorem ids_prune_sublist (target : ElementId) (e : Element) :
    (e.prune target).ids.Sublist e.ids := by
  cases e with
  | mk id tag attributes children =>
      rw [prune, ids, ids]
      exact (idsOfList_pruneList_sublist target children).cons_cons id

theorem idsOfList_pruneList_sublist (target : ElementId) (es : List Element) :
    (idsOfList (pruneList target es)).Sublist (idsOfList es) := by
  cases es with
  | nil => exact List.Sublist.refl []
  | cons e rest =>
      have hrest := idsOfList_pruneList_sublist target rest
      rw [pruneList]
      split
      · rw [idsOfList]
        exact hrest.trans (List.sublist_append_right _ _)
      · rw [idsOfList, idsOfList]
        exact (ids_prune_sublist target e).append hrest

end

/-- A part of a list without repetition is the list filtered by membership in the part. -/
theorem eq_filter_of_sublist {α : Type} {part whole : List α} {p : α → Bool}
    (hwhole : whole.Nodup) (hsublist : part.Sublist whole)
    (hmem : ∀ x ∈ whole, x ∈ part ↔ p x = true) : part = whole.filter p := by
  have hkept : part.filter p = part := by
    rw [List.filter_eq_self]
    intro x hx
    exact (hmem x (hsublist.subset hx)).mp hx
  have hpart : part.Sublist (whole.filter p) := by
    rw [← hkept]
    exact hsublist.filter p
  have hsubset : whole.filter p ⊆ part := by
    intro x hx
    rcases List.mem_filter.mp hx with ⟨hx, hpx⟩
    exact (hmem x hx).mpr hpx
  exact hpart.eq_of_length_le (List.subperm_of_subset (hwhole.filter p) hsubset).length_le

theorem ids_of_detach? {target : ElementId} {e removed left : Element} (hids : e.ids.Nodup)
    (h : e.detach? target = some (removed, left)) :
    left.ids = e.ids.filter fun i => decide (i ∉ removed.ids) := by
  have hperm := perm_ids_of_detach? h
  have hparts := List.nodup_append.mp (hperm.nodup_iff.mp hids)
  have hsublist : left.ids.Sublist e.ids := by
    rw [eq_prune_of_detach? hids h]
    exact ids_prune_sublist target e
  apply eq_filter_of_sublist hids hsublist
  intro i hi
  rw [decide_eq_true_iff]
  constructor
  · intro hleft hremoved
    exact hparts.2.2 i hremoved i hleft rfl
  · intro hnot
    exact (List.mem_append.mp (hperm.mem_iff.mp hi)).resolve_left hnot

@[simp] theorem tag_prune (target : ElementId) (e : Element) :
    (e.prune target).tag = e.tag := by
  cases e
  rw [prune]

theorem ids_children_prune (target : ElementId) (e : Element) :
    (e.prune target).children.map Element.id =
      (e.children.map Element.id).filter fun i => decide (i ≠ target) := by
  rw [children_prune]
  induction e.children with
  | nil => rfl
  | cons c rest ih =>
      rw [pruneList]
      by_cases h : c.id = target
      · rw [if_pos h, ih, List.map_cons, List.filter_cons_of_neg (by simp [h])]
      · rw [if_neg h, List.map_cons, List.map_cons, List.filter_cons_of_pos (by simp [h]), ih,
          id_prune]

theorem mem_idsOfList_children {target : ElementId} {e : Element} (h : target ∈ e.ids)
    (hne : target ≠ e.id) : target ∈ idsOfList e.children := by
  cases e
  rw [ids] at h
  exact (List.mem_cons.mp h).resolve_left hne

theorem exists_detach? {target : ElementId} {e : Element} (hids : e.ids.Nodup)
    (h : target ∈ e.ids) (hne : target ≠ e.id) :
    ∃ removed left, e.detach? target = some (removed, left) ∧
      e.find? target = some removed := by
  rcases exists_detach?_of_mem (mem_idsOfList_children h hne) with ⟨⟨removed, left⟩, hdetach⟩
  exact ⟨removed, left, hdetach, find?_of_detach? hids hdetach⟩

/-- The topmost element cannot be detached, and neither can one that is not there. -/
theorem detach?_eq_none {target : ElementId} {e : Element} (hids : e.ids.Nodup)
    (h : target = e.id ∨ target ∉ e.ids) : e.detach? target = none := by
  cases hdetach : e.detach? target with
  | none => rfl
  | some parts =>
      rcases parts with ⟨removed, left⟩
      rcases h with rfl | hnot
      · have hparts := List.nodup_append.mp ((perm_ids_of_detach? hdetach).nodup_iff.mp hids)
        have hremoved : e.id ∈ removed.ids := by
          rw [← id_of_detach? hdetach]
          exact removed.id_mem_ids
        have hleft : e.id ∈ left.ids := by
          have hmem := (e.prune e.id).id_mem_ids
          rw [id_prune] at hmem
          rw [eq_prune_of_detach? hids hdetach]
          exact hmem
        exact absurd rfl (hparts.2.2 e.id hremoved e.id hleft)
      · exact absurd (mem_ids_of_detach? hdetach) hnot

end Element
end ViewModifiers
