import ViewModifiers.Element.Tree
import Mathlib.Data.List.Perm.Basic
import Mathlib.Data.List.Nodup

/-!
# Changes of element trees

Where the identities of a tree are distinct, a change at the first element of an
identity is a change at every element of it, and detaching an element leaves
what pruning leaves.  In this form a change commutes with finding an element, so
that it is plain what the change does to any element which stays in the tree.
-/

namespace ViewModifiers
namespace Element

/-!
## Finding elements
-/

mutual

theorem id_of_find? {target : ElementId} {e found : Element}
    (h : e.find? target = some found) : found.id = target := by
  cases e with
  | mk id tag attributes children =>
      rw [find?] at h
      split at h
      · next heq =>
          cases h
          exact heq
      · exact id_of_findIn? h

theorem id_of_findIn? {target : ElementId} {es : List Element} {found : Element}
    (h : findIn? target es = some found) : found.id = target := by
  cases es with
  | nil => cases h
  | cons e rest =>
      rw [findIn?] at h
      split at h
      · next heq =>
          cases h
          exact id_of_find? heq
      · exact id_of_findIn? h

end

mutual

theorem mem_ids_of_find? {target : ElementId} {e found : Element}
    (h : e.find? target = some found) : target ∈ e.ids := by
  cases e with
  | mk id tag attributes children =>
      rw [find?] at h
      rw [ids]
      split at h
      · next heq =>
          rw [heq]
          exact List.mem_cons_self
      · exact List.mem_cons_of_mem id (mem_idsOfList_of_findIn? h)

theorem mem_idsOfList_of_findIn? {target : ElementId} {es : List Element} {found : Element}
    (h : findIn? target es = some found) : target ∈ idsOfList es := by
  cases es with
  | nil => cases h
  | cons e rest =>
      rw [findIn?] at h
      rw [idsOfList]
      split at h
      · next heq =>
          cases h
          exact List.mem_append_left _ (mem_ids_of_find? heq)
      · exact List.mem_append_right _ (mem_idsOfList_of_findIn? h)

end

theorem find?_eq_none {target : ElementId} {e : Element} (h : target ∉ e.ids) :
    e.find? target = none := by
  cases hfind : e.find? target with
  | none => rfl
  | some found => exact absurd (mem_ids_of_find? hfind) h

theorem id_mem_ids (e : Element) : e.id ∈ e.ids := by
  cases e
  rw [ids]
  exact List.mem_cons_self

theorem id_mem_idsOfList {e : Element} {es : List Element} (h : e ∈ es) :
    e.id ∈ idsOfList es := by
  induction es with
  | nil => cases h
  | cons first rest ih =>
      rw [idsOfList]
      rcases List.mem_cons.mp h with rfl | h
      · exact List.mem_append_left _ e.id_mem_ids
      · exact List.mem_append_right _ (ih h)

/-- An element differs from those below it, where identities are distinct. -/
theorem id_ne_of_mem_children {e child : Element} (hids : e.ids.Nodup)
    (h : child ∈ e.children) : child.id ≠ e.id := by
  cases e with
  | mk id tag attributes children =>
      intro heq
      rw [ids] at hids
      have hmem : child.id ∈ idsOfList children := id_mem_idsOfList h
      rw [heq] at hmem
      exact (List.nodup_cons.mp hids).1 hmem

mutual

/-- The identities below a found element are among those of the tree, in their order. -/
theorem ids_sublist_of_find? {target : ElementId} {e found : Element}
    (h : e.find? target = some found) : found.ids.Sublist e.ids := by
  cases e with
  | mk id tag attributes children =>
      rw [find?] at h
      split at h
      · cases h
        exact List.Sublist.refl _
      · rw [ids]
        exact (ids_sublist_of_findIn? h).cons id

theorem ids_sublist_of_findIn? {target : ElementId} {es : List Element} {found : Element}
    (h : findIn? target es = some found) : found.ids.Sublist (idsOfList es) := by
  cases es with
  | nil => cases h
  | cons e rest =>
      rw [findIn?] at h
      rw [idsOfList]
      split at h
      · next heq =>
          cases h
          exact (ids_sublist_of_find? heq).trans (List.sublist_append_left _ _)
      · exact (ids_sublist_of_findIn? h).trans (List.sublist_append_right _ _)

end

/-!
## Changing attributes
-/

mutual

def modify (target : ElementId) (f : Dictionary RawValue → Dictionary RawValue) :
    Element → Element
  | ⟨id, tag, attributes, children⟩ =>
      ⟨id, tag, if id = target then f attributes else attributes,
        modifyList target f children⟩

def modifyList (target : ElementId) (f : Dictionary RawValue → Dictionary RawValue) :
    List Element → List Element
  | [] => []
  | e :: rest => e.modify target f :: modifyList target f rest

end

section
variable (target : ElementId) (f : Dictionary RawValue → Dictionary RawValue)

theorem modifyList_eq_map (es : List Element) :
    modifyList target f es = es.map (modify target f) := by
  induction es with
  | nil => rfl
  | cons e rest ih => rw [modifyList, ih, List.map_cons]

@[simp] theorem id_modify (e : Element) : (e.modify target f).id = e.id := by
  cases e
  rw [modify]

@[simp] theorem handle_modify (e : Element) : (e.modify target f).handle = e.handle := by
  cases e
  rw [modify]
  rfl

theorem children_modify (e : Element) :
    (e.modify target f).children = e.children.map (modify target f) := by
  cases e
  rw [modify, modifyList_eq_map]

theorem attributes_modify (e : Element) :
    (e.modify target f).attributes =
      if e.id = target then f e.attributes else e.attributes := by
  cases e
  rw [modify]

mutual

theorem find?_modify (id : ElementId) (e : Element) :
    (e.modify target f).find? id = (e.find? id).map (modify target f) := by
  cases e with
  | mk own tag attributes children =>
      rw [modify, find?, find?]
      split
      · rw [Option.map_some, modify]
      · exact findIn?_modifyList id children

theorem findIn?_modifyList (id : ElementId) (es : List Element) :
    findIn? id (modifyList target f es) = (findIn? id es).map (modify target f) := by
  cases es with
  | nil => rfl
  | cons e rest =>
      rw [modifyList, findIn?, findIn?, find?_modify id e]
      cases e.find? id with
      | none => exact findIn?_modifyList id rest
      | some found => rfl

end

mutual

theorem modify_of_notMem {e : Element} (h : target ∉ e.ids) : e.modify target f = e := by
  cases e with
  | mk id tag attributes children =>
      rw [ids, List.mem_cons, not_or] at h
      rw [modify, if_neg (Ne.symm h.1), modifyList_of_notMem h.2]

theorem modifyList_of_notMem {es : List Element} (h : target ∉ idsOfList es) :
    modifyList target f es = es := by
  cases es with
  | nil => rfl
  | cons e rest =>
      rw [idsOfList, List.mem_append, not_or] at h
      rw [modifyList, modify_of_notMem h.1, modifyList_of_notMem h.2]

end

mutual

theorem update?_eq_none {e : Element} (h : target ∉ e.ids) : e.update? target f = none := by
  cases e with
  | mk id tag attributes children =>
      rw [ids, List.mem_cons, not_or] at h
      rw [update?, if_neg (Ne.symm h.1), updateIn?_eq_none h.2]
      rfl

theorem updateIn?_eq_none {es : List Element} (h : target ∉ idsOfList es) :
    updateIn? target f es = none := by
  cases es with
  | nil => rfl
  | cons e rest =>
      rw [idsOfList, List.mem_append, not_or] at h
      rw [updateIn?, update?_eq_none h.1, updateIn?_eq_none h.2]
      rfl

end

mutual

theorem update?_eq_modify {e : Element} (hids : e.ids.Nodup) (h : target ∈ e.ids) :
    e.update? target f = some (e.modify target f) := by
  cases e with
  | mk id tag attributes children =>
      rw [ids] at hids h
      have hown := List.nodup_cons.mp hids
      rw [update?, modify]
      split
      · next heq =>
          rw [heq] at hown
          rw [modifyList_of_notMem target f hown.1]
      · next hne =>
          have hbelow : target ∈ idsOfList children :=
            (List.mem_cons.mp h).resolve_left (Ne.symm hne)
          rw [updateIn?_eq_modifyList hown.2 hbelow]
          rfl

theorem updateIn?_eq_modifyList {es : List Element} (hids : (idsOfList es).Nodup)
    (h : target ∈ idsOfList es) :
    updateIn? target f es = some (modifyList target f es) := by
  cases es with
  | nil => cases h
  | cons e rest =>
      rw [idsOfList] at hids h
      have hparts := List.nodup_append.mp hids
      rw [updateIn?, modifyList]
      by_cases he : target ∈ e.ids
      · have hrest : target ∉ idsOfList rest := by
          intro hmem
          exact hparts.2.2 target he target hmem rfl
        rw [update?_eq_modify hparts.1 he, modifyList_of_notMem target f hrest]
      · have hrest : target ∈ idsOfList rest := (List.mem_append.mp h).resolve_left he
        rw [update?_eq_none target f he, modify_of_notMem target f he,
          updateIn?_eq_modifyList hparts.2.1 hrest]
        rfl

end

theorem childrenSelectedBy_modify {e : Element} {s : Selector}
    (h : ∀ child ∈ e.children,
      (child.modify target f).isSelectedBy s = child.isSelectedBy s) :
    (e.modify target f).childrenSelectedBy s = e.childrenSelectedBy s := by
  rw [childrenSelectedBy, childrenSelectedBy, children_modify, List.filter_map, List.map_map]
  have hfilter : e.children.filter ((fun c => c.isSelectedBy s) ∘ modify target f) =
      e.children.filter fun c => c.isSelectedBy s := by
    apply List.filter_congr
    exact h
  have hhandle : handle ∘ modify target f = handle := by
    funext c
    exact handle_modify target f c
  rw [hfilter, hhandle]

/-- Only the template attribute decides whether a selection takes an element. -/
theorem isSelectedBy_modify {e : Element} {s : Selector}
    (h : e.id = target →
      (f e.attributes).find? templateAttribute = e.attributes.find? templateAttribute) :
    (e.modify target f).isSelectedBy s = e.isSelectedBy s := by
  cases s with
  | template name =>
      rw [isSelectedBy, isSelectedBy, attribute?, attribute?, attributes_modify]
      split
      · next heq => rw [h heq]
      · rfl
  | tag name =>
      cases e
      rw [modify]
      rfl
  | all => rfl

end

/-!
## Detaching elements
-/

mutual

/-- Takes every element of an identity from below another one, with what is below it. -/
def prune (target : ElementId) : Element → Element
  | ⟨id, tag, attributes, children⟩ => ⟨id, tag, attributes, pruneList target children⟩

def pruneList (target : ElementId) : List Element → List Element
  | [] => []
  | e :: rest =>
      if e.id = target then pruneList target rest
      else e.prune target :: pruneList target rest

end

section
variable (target : ElementId)

@[simp] theorem id_prune (e : Element) : (e.prune target).id = e.id := by
  cases e
  rw [prune]

@[simp] theorem attributes_prune (e : Element) :
    (e.prune target).attributes = e.attributes := by
  cases e
  rw [prune]

theorem children_prune (e : Element) :
    (e.prune target).children = pruneList target e.children := by
  cases e
  rw [prune]

theorem handle_prune (e : Element) : (e.prune target).handle = e.handle := by
  cases e
  rw [prune]
  rfl

theorem isSelectedBy_prune (e : Element) (s : Selector) :
    (e.prune target).isSelectedBy s = e.isSelectedBy s := by
  cases e
  rw [prune]
  cases s <;> rfl

theorem pruneList_eq_map {es : List Element} (h : ∀ e ∈ es, e.id ≠ target) :
    pruneList target es = es.map (prune target) := by
  induction es with
  | nil => rfl
  | cons e rest ih =>
      have hrest : ∀ c ∈ rest, c.id ≠ target := fun c hc => h c (List.mem_cons_of_mem e hc)
      rw [pruneList, if_neg (h e List.mem_cons_self), ih hrest, List.map_cons]

/-- Where no child is detached, the selected children are those of before. -/
theorem childrenSelectedBy_prune {e : Element} (s : Selector)
    (h : ∀ child ∈ e.children, child.id ≠ target) :
    (e.prune target).childrenSelectedBy s = e.childrenSelectedBy s := by
  rw [childrenSelectedBy, childrenSelectedBy, children_prune, pruneList_eq_map target h,
    List.filter_map, List.map_map]
  have hfilter : e.children.filter ((fun c => c.isSelectedBy s) ∘ prune target) =
      e.children.filter fun c => c.isSelectedBy s := by
    apply List.filter_congr
    intro child _
    exact isSelectedBy_prune target child s
  have hhandle : handle ∘ prune target = handle := by
    funext c
    exact handle_prune target c
  rw [hfilter, hhandle]

mutual

theorem prune_of_notMem {e : Element} (h : target ∉ e.ids) : e.prune target = e := by
  cases e with
  | mk id tag attributes children =>
      rw [ids, List.mem_cons, not_or] at h
      rw [prune, pruneList_of_notMem h.2]

theorem pruneList_of_notMem {es : List Element} (h : target ∉ idsOfList es) :
    pruneList target es = es := by
  cases es with
  | nil => rfl
  | cons e rest =>
      rw [idsOfList, List.mem_append, not_or] at h
      have hne : e.id ≠ target := by
        intro heq
        exact h.1 (heq ▸ e.id_mem_ids)
      rw [pruneList, if_neg hne, prune_of_notMem h.1, pruneList_of_notMem h.2]

end

end

theorem takeFirst?_eq_some {target : ElementId} {es rest : List Element} {removed : Element}
    (h : takeFirst? target es = some (removed, rest)) :
    ∃ front back, es = front ++ removed :: back ∧ rest = front ++ back ∧
      removed.id = target := by
  induction es generalizing rest with
  | nil => cases h
  | cons e es ih =>
      rw [takeFirst?] at h
      split at h
      · next heq =>
          cases h
          exact ⟨[], es, rfl, rfl, heq⟩
      · rcases Option.map_eq_some_iff.mp h with ⟨⟨found, left⟩, hfound, hpair⟩
        cases hpair
        rcases ih hfound with ⟨front, back, hes, hleft, hid⟩
        exact ⟨e :: front, back, by rw [hes]; rfl, by rw [hleft]; rfl, hid⟩

theorem takeFirst?_eq_none {target : ElementId} {es : List Element}
    (h : takeFirst? target es = none) : ∀ e ∈ es, e.id ≠ target := by
  induction es with
  | nil => simp
  | cons e es ih =>
      rw [takeFirst?] at h
      split at h
      · cases h
      · next hne =>
          intro c hc
          rcases List.mem_cons.mp hc with rfl | hc
          · exact hne
          · exact ih (Option.map_eq_none_iff.mp h) c hc

theorem idsOfList_append (es fs : List Element) :
    idsOfList (es ++ fs) = idsOfList es ++ idsOfList fs := by
  induction es with
  | nil => rfl
  | cons e rest ih =>
      rw [List.cons_append, idsOfList, idsOfList, ih, List.append_assoc]

mutual

theorem perm_ids_of_detach? {target : ElementId} {e removed left : Element}
    (h : e.detach? target = some (removed, left)) :
    e.ids.Perm (removed.ids ++ left.ids) := by
  cases e with
  | mk id tag attributes children =>
      rw [detach?] at h
      split at h
      · next _ rest htake =>
          cases h
          rcases takeFirst?_eq_some htake with ⟨front, back, rfl, rfl, -⟩
          rw [ids, ids, idsOfList_append, idsOfList_append, idsOfList]
          refine List.Perm.trans ?_ List.perm_middle.symm
          exact (List.perm_append_comm_assoc _ _ _).cons id
      · rcases Option.map_eq_some_iff.mp h with ⟨⟨found, changed⟩, hfound, hpair⟩
        cases hpair
        rw [ids, ids]
        refine List.Perm.trans ?_ List.perm_middle.symm
        exact (perm_ids_of_detachIn? hfound).cons id

theorem perm_ids_of_detachIn? {target : ElementId} {es left : List Element} {removed : Element}
    (h : detachIn? target es = some (removed, left)) :
    (idsOfList es).Perm (removed.ids ++ idsOfList left) := by
  cases es with
  | nil => cases h
  | cons e rest =>
      rw [detachIn?] at h
      split at h
      · next _ changed heq =>
          cases h
          rw [idsOfList, idsOfList, ← List.append_assoc]
          exact (perm_ids_of_detach? heq).append_right (idsOfList rest)
      · rcases Option.map_eq_some_iff.mp h with ⟨⟨found, changed⟩, hfound, hpair⟩
        cases hpair
        rw [idsOfList, idsOfList]
        exact ((perm_ids_of_detachIn? hfound).append_left e.ids).trans
          (List.perm_append_comm_assoc _ _ _)

end

mutual

theorem id_of_detach? {target : ElementId} {e removed left : Element}
    (h : e.detach? target = some (removed, left)) : removed.id = target := by
  cases e with
  | mk id tag attributes children =>
      rw [detach?] at h
      split at h
      · next _ rest htake =>
          cases h
          rcases takeFirst?_eq_some htake with ⟨_, _, -, -, hid⟩
          exact hid
      · rcases Option.map_eq_some_iff.mp h with ⟨⟨found, changed⟩, hfound, hpair⟩
        cases hpair
        exact id_of_detachIn? hfound

theorem id_of_detachIn? {target : ElementId} {es left : List Element} {removed : Element}
    (h : detachIn? target es = some (removed, left)) : removed.id = target := by
  cases es with
  | nil => cases h
  | cons e rest =>
      rw [detachIn?] at h
      split at h
      · next _ changed heq =>
          cases h
          exact id_of_detach? heq
      · rcases Option.map_eq_some_iff.mp h with ⟨⟨found, changed⟩, hfound, hpair⟩
        cases hpair
        exact id_of_detachIn? hfound

end

theorem mem_ids_of_detach? {target : ElementId} {e removed left : Element}
    (h : e.detach? target = some (removed, left)) : target ∈ e.ids := by
  rw [(perm_ids_of_detach? h).mem_iff, ← id_of_detach? h]
  exact List.mem_append_left _ removed.id_mem_ids

mutual

theorem eq_prune_of_detach? {target : ElementId} {e removed left : Element}
    (hids : e.ids.Nodup) (h : e.detach? target = some (removed, left)) :
    left = e.prune target := by
  cases e with
  | mk id tag attributes children =>
      rw [ids] at hids
      have hbelow := (List.nodup_cons.mp hids).2
      rw [detach?] at h
      rw [prune]
      split at h
      · next _ rest htake =>
          cases h
          rcases takeFirst?_eq_some htake with ⟨front, back, rfl, rfl, rfl⟩
          rw [pruneList_removed hbelow]
      · next hnone =>
          rcases Option.map_eq_some_iff.mp h with ⟨⟨found, changed⟩, hfound, hpair⟩
          cases hpair
          rw [eq_pruneList_of_detachIn? hbelow (takeFirst?_eq_none hnone) hfound]

theorem eq_pruneList_of_detachIn? {target : ElementId} {es left : List Element}
    {removed : Element} (hids : (idsOfList es).Nodup) (hne : ∀ e ∈ es, e.id ≠ target)
    (h : detachIn? target es = some (removed, left)) : left = pruneList target es := by
  cases es with
  | nil => cases h
  | cons e rest =>
      rw [idsOfList] at hids
      have hparts := List.nodup_append.mp hids
      rw [detachIn?] at h
      rw [pruneList, if_neg (hne e List.mem_cons_self)]
      split at h
      · next _ changed heq =>
          cases h
          have hrest : target ∉ idsOfList rest := by
            intro hmem
            exact hparts.2.2 target (mem_ids_of_detach? heq) target hmem rfl
          rw [eq_prune_of_detach? hparts.1 heq, pruneList_of_notMem target hrest]
      · rcases Option.map_eq_some_iff.mp h with ⟨⟨found, changed⟩, hfound, hpair⟩
        cases hpair
        have hmem : target ∈ idsOfList rest := by
          rw [(perm_ids_of_detachIn? hfound).mem_iff, ← id_of_detachIn? hfound]
          exact List.mem_append_left _ found.id_mem_ids
        have he : target ∉ e.ids := by
          intro he
          exact hparts.2.2 target he target hmem rfl
        rw [eq_pruneList_of_detachIn? hparts.2.1
          (fun c hc => hne c (List.mem_cons_of_mem e hc)) hfound, prune_of_notMem target he]

theorem pruneList_removed {front back : List Element} {removed : Element}
    (hids : (idsOfList (front ++ removed :: back)).Nodup) :
    front ++ back = pruneList removed.id (front ++ removed :: back) := by
  cases front with
  | nil =>
      rw [List.nil_append, idsOfList] at hids
      have hback : removed.id ∉ idsOfList back := by
        intro hmem
        exact (List.nodup_append.mp hids).2.2 _ removed.id_mem_ids _ hmem rfl
      rw [List.nil_append, List.nil_append, pruneList, if_pos rfl, pruneList_of_notMem _ hback]
  | cons e front =>
      rw [List.cons_append, idsOfList] at hids
      have hparts := List.nodup_append.mp hids
      have hmem : removed.id ∈ idsOfList (front ++ removed :: back) :=
        id_mem_idsOfList (List.mem_append_right _ List.mem_cons_self)
      have he : removed.id ∉ e.ids := by
        intro he
        exact hparts.2.2 _ he _ hmem rfl
      have hne : e.id ≠ removed.id := by
        intro heq
        exact he (heq ▸ e.id_mem_ids)
      rw [List.cons_append, List.cons_append, pruneList, if_neg hne, prune_of_notMem _ he,
        ← pruneList_removed hparts.2.1]

end

mutual

theorem find?_of_find?_prune {target id : ElementId} {e found : Element}
    (hids : e.ids.Nodup) (h : (e.prune target).find? id = some found) :
    ∃ before, e.find? id = some before ∧ found = before.prune target := by
  cases e with
  | mk own tag attributes children =>
      rw [ids] at hids
      rw [prune, find?] at h
      rw [find?]
      split at h
      · next heq =>
          cases h
          exact ⟨_, if_pos heq, by rw [prune]⟩
      · next hne =>
          rw [if_neg hne]
          exact findIn?_of_findIn?_pruneList (List.nodup_cons.mp hids).2 h

theorem findIn?_of_findIn?_pruneList {target id : ElementId} {es : List Element}
    {found : Element} (hids : (idsOfList es).Nodup)
    (h : findIn? id (pruneList target es) = some found) :
    ∃ before, findIn? id es = some before ∧ found = before.prune target := by
  cases es with
  | nil => cases h
  | cons e rest =>
      rw [idsOfList] at hids
      have hparts := List.nodup_append.mp hids
      rw [pruneList] at h
      rw [findIn?]
      split at h
      · rcases findIn?_of_findIn?_pruneList hparts.2.1 h with ⟨before, hbefore, hfound⟩
        have he : id ∉ e.ids := by
          intro he
          exact hparts.2.2 id he id (mem_idsOfList_of_findIn? hbefore) rfl
        rw [find?_eq_none he]
        exact ⟨before, hbefore, hfound⟩
      · rw [findIn?] at h
        split at h
        · next heq =>
            cases h
            rcases find?_of_find?_prune hparts.1 heq with ⟨before, hbefore, hfound⟩
            rw [hbefore]
            exact ⟨before, rfl, hfound⟩
        · rcases findIn?_of_findIn?_pruneList hparts.2.1 h with ⟨before, hbefore, hfound⟩
          have he : id ∉ e.ids := by
            intro he
            exact hparts.2.2 id he id (mem_idsOfList_of_findIn? hbefore) rfl
          rw [find?_eq_none he]
          exact ⟨before, hbefore, hfound⟩

end

end Element
end ViewModifiers
