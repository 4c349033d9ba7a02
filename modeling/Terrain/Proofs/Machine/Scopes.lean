import Terrain.Machine.Stacks
import Terrain.Proofs.Heap.Counts

/-!
# References held by scopes

A scope holds one reference for every binding in it, and names stay in ascending order, so that a
name has one binding. Blocks and calls hold what their scopes hold.

* `Dictionary.Ordered` — names ascend; `Dictionary.insert` keeps that.
* `Bindings.held`, `CallStack.held` — references of a scope and of all scopes of all calls.
* `Bindings.ends_declare?`, `Bindings.ends_rebind?` — the counted operations.
-/

namespace Terrain

/-! ## Dictionaries -/

namespace Dictionary

variable {α : Type}

def Ordered (dictionary : Dictionary α) : Prop := dictionary.Pairwise fun left right => left.1 < right.1

theorem get?_cons (name other : String) (value : α) (rest : Dictionary α) :
    get? ((other, value) :: rest) name = if name = other then some value else get? rest name := by
  rw [get?, List.lookup_cons, get?]
  by_cases same : name = other
  · simp [same]
  · rw [if_neg same, beq_eq_false_iff_ne.2 same]

theorem mem_of_get? {dictionary : Dictionary α} {name : String} {value : α}
    (found : get? dictionary name = some value) : (name, value) ∈ dictionary := by
  obtain ⟨before, after, rfl, -⟩ := List.lookup_eq_some_iff.1 found
  exact List.mem_append_right _ List.mem_cons_self

theorem mem_insert {name : String} {value : α} {entry : String × α} :
    ∀ {dictionary : Dictionary α}, entry ∈ insert name value dictionary →
      entry = (name, value) ∨ entry ∈ dictionary
  | [], member => .inl (by simpa [insert] using member)
  | (other, old) :: rest, member => by
    unfold insert at member
    split at member
    · rcases List.mem_cons.1 member with same | member
      · exact .inl same
      · exact .inr member
    split at member
    · rcases List.mem_cons.1 member with same | member
      · exact .inl same
      · exact .inr (List.mem_cons_of_mem _ member)
    · rcases List.mem_cons.1 member with same | member
      · exact .inr (same ▸ List.mem_cons_self)
      · exact (mem_insert member).imp_right (List.mem_cons_of_mem _)

theorem Ordered.insert {name : String} {value : α} :
    ∀ {dictionary : Dictionary α}, Ordered dictionary → Ordered (insert name value dictionary)
  | [], _ => List.pairwise_singleton _ _
  | (other, old) :: rest, ordered => by
    obtain ⟨first, remaining⟩ := List.pairwise_cons.1 ordered
    unfold Dictionary.insert
    split
    case isTrue before =>
      refine List.pairwise_cons.2 ⟨?_, ordered⟩
      intro entry member
      rcases List.mem_cons.1 member with rfl | member
      · exact before
      · exact String.lt_trans before (first entry member)
    case isFalse notBefore =>
      split
      case isTrue same => exact same ▸ List.pairwise_cons.2 ⟨first, remaining⟩
      case isFalse different =>
        refine List.pairwise_cons.2 ⟨?_, Ordered.insert remaining⟩
        intro entry member
        rcases mem_insert member with rfl | member
        · have notAfter : ¬name ≤ other := fun atMost =>
            different (String.le_antisymm atMost (String.not_lt.1 notBefore))
          simpa using notAfter
        · exact first entry member

/-- A new name adds an entry. -/
theorem insert_perm_of_get?_eq_none {name : String} {value : α} :
    ∀ {dictionary : Dictionary α}, get? dictionary name = none →
      (insert name value dictionary).Perm ((name, value) :: dictionary)
  | [], _ => .refl _
  | (other, old) :: rest, missing => by
    rw [get?_cons] at missing
    unfold insert
    split
    · exact .refl _
    split
    case isTrue same => simp [same] at missing
    case isFalse different =>
      rw [if_neg different] at missing
      exact ((insert_perm_of_get?_eq_none missing).cons _).trans (.swap _ _ _)

/-- A known name exchanges its entry. -/
theorem insert_perm_of_get?_eq_some {name : String} {value old : α} :
    ∀ {dictionary : Dictionary α}, Ordered dictionary → get? dictionary name = some old →
      ∃ others : Dictionary α, dictionary.Perm ((name, old) :: others) ∧
        (insert name value dictionary).Perm ((name, value) :: others)
  | [], _, found => by cases found
  | (other, first) :: rest, ordered, found => by
    obtain ⟨before, remaining⟩ := List.pairwise_cons.1 ordered
    rw [get?_cons] at found
    by_cases same : name = other
    · subst same
      cases found.symm.trans (if_pos rfl)
      refine ⟨rest, .refl _, ?_⟩
      simp [insert]
    · rw [if_neg same] at found
      -- the name stands behind the first one, because the entries ascend
      have after : ¬name < other := by
        exact String.lt_asymm (before _ (mem_of_get? found))
      obtain ⟨others, whole, inserted⟩ := @insert_perm_of_get?_eq_some name value old _ remaining found
      refine ⟨(other, first) :: others, (whole.cons _).trans (.swap _ _ _), ?_⟩
      simp only [insert, if_neg after, if_neg same]
      exact (inserted.cons _).trans (.swap _ _ _)

end Dictionary

/-! ## Bindings -/

namespace Bindings

def held (bindings : Bindings) : Multiset ObjectId := ↑(bindings.items.map fun item => item.2.value)

def Ordered (bindings : Bindings) : Prop := Dictionary.Ordered bindings.items

@[simp] theorem held_empty : empty.held = 0 := rfl

theorem ordered_empty : empty.Ordered := List.Pairwise.nil

theorem Ordered.insert {bindings : Bindings} {name : String} {binding : Binding}
    (ordered : bindings.Ordered) : (bindings.insert name binding).Ordered :=
  Dictionary.Ordered.insert ordered

theorem held_insert_of_get?_eq_none {bindings : Bindings} {name : String} {binding : Binding}
    (missing : bindings.get? name = none) :
    (bindings.insert name binding).held = binding.value ::ₘ bindings.held :=
  Multiset.coe_eq_coe.2 ((Dictionary.insert_perm_of_get?_eq_none missing).map _)

theorem held_insert_of_get?_eq_some {bindings : Bindings} {name : String} {binding old : Binding}
    (ordered : bindings.Ordered) (found : bindings.get? name = some old) :
    old.value ::ₘ (bindings.insert name binding).held = binding.value ::ₘ bindings.held := by
  obtain ⟨others, whole, inserted⟩ :=
    @Dictionary.insert_perm_of_get?_eq_some _ name binding old _ ordered found
  have before : bindings.held = old.value ::ₘ ↑(others.map fun item => item.2.value) :=
    Multiset.coe_eq_coe.2 (whole.map _)
  have after : (bindings.insert name binding).held =
      binding.value ::ₘ ↑(others.map fun item => item.2.value) :=
    Multiset.coe_eq_coe.2 (inserted.map _)
  rw [before, after, Multiset.cons_swap]

theorem mem_held_of_get? {bindings : Bindings} {name : String} {binding : Binding}
    (found : bindings.get? name = some binding) : binding.value ∈ bindings.held := by
  exact Multiset.mem_coe.2 (List.mem_map_of_mem (Dictionary.mem_of_get? found))

theorem drops_releaseAll (bindings : Bindings) : Heap.Drops bindings.releaseAll bindings.held :=
  Heap.drops_releaseAll _

section Counted

variable {heap : Heap} {bindings : Bindings} {others : Multiset ObjectId} {fresh : Set ObjectId}
  {handles : Heap.Handles} {name : String} {value : ObjectId}

/-- A declared name pays for its reference. -/
theorem ends_declare? {isConst : Bool} (ordered : bindings.Ordered)
    (accounted : heap.Accounted (bindings.held + others) fresh handles) (live : heap.contains value) :
    Ends (bindings.declare? name value isConst heap)
      (fun declared heap' => match declared with
        | some bindings => bindings.Ordered ∧
          heap'.Accounted (bindings.held + others) (fresh \ {value}) handles ∧
          heap'.value? = heap.value?
        | none => heap' = heap)
      (fun _ => False) := by
  unfold declare?
  split
  case isTrue => exact Ends.pure rfl
  case isFalse taken =>
    refine Ends.bind ((Heap.ends_addRef accounted live).then ?_)
    rintro - heap' ⟨accounted, kept⟩
    have missing : bindings.get? name = none := by simpa [contains] using taken
    refine Ends.pure ⟨ordered.insert, accounted.of_eq ?_, kept⟩
    rw [held_insert_of_get?_eq_none missing, Multiset.cons_add]

/-- A name that is bound to another object exchanges the references. -/
theorem ends_rebind? {binding : Binding} (ordered : bindings.Ordered)
    (found : bindings.get? name = some binding)
    (accounted : heap.Accounted (bindings.held + others) fresh handles) (live : heap.contains value) :
    Ends (bindings.rebind? name binding value heap)
      (fun rebound heap' => match rebound with
        | some bindings => bindings.Ordered ∧
          heap'.Accounted (bindings.held + others) fresh handles
        | none => heap' = heap)
      (fun _ => False) := by
  unfold rebind?
  split
  case isTrue => exact Ends.pure rfl
  case isFalse =>
    split
    case isTrue => exact Ends.pure ⟨ordered, accounted⟩
    case isFalse =>
      refine Ends.bind ((Heap.ends_addRef accounted live).then ?_)
      rintro - heap' ⟨accounted, -⟩
      have exchanged := @held_insert_of_get?_eq_some _ _ { binding with value } _ ordered found
      have released : heap'.Accounted
          (binding.value ::ₘ ((bindings.insert name { binding with value }).held + others)) fresh
          handles := by
        refine (accounted.mono Set.sdiff_subset).of_eq ?_
        rw [← Multiset.cons_add, ← Multiset.cons_add, exchanged]
      exact Ends.bind ((Heap.ends_release released).then fun _ heap accounted =>
        Ends.pure ⟨ordered.insert, accounted⟩)

end Counted

end Bindings

/-! ## Blocks and calls -/

def BlockStack.held (stack : BlockStack) : Multiset ObjectId :=
  (stack.entries.map fun block => block.locals.held).sum

def BlockStack.Ordered (stack : BlockStack) : Prop := ∀ block ∈ stack.entries, block.locals.Ordered

def CallStack.held (stack : CallStack) : Multiset ObjectId :=
  (stack.entries.map fun call => call.blocks.held).sum

def CallStack.Ordered (stack : CallStack) : Prop := ∀ call ∈ stack.entries, call.blocks.Ordered

/-- Replacing an entry of a list that is counted from its end exchanges its share of the sum. -/
theorem sum_setFromEnd {α : Type} (share : α → Multiset ObjectId) {items : List α} {height : Nat}
    {old new : α} (found : items.reverse[height]? = some old) :
    (((items.reverse.set height new).reverse.map share).sum + share old =
      (items.map share).sum + share new) := by
  have sums := Heap.sum_modify share (fun _ => new) items.reverse height old found
  rw [← List.set_eq_modify] at sums
  simpa [List.sum_reverse] using sums

theorem mem_setFromEnd {α : Type} {items : List α} {height : Nat} {new item : α}
    (member : item ∈ (items.reverse.set height new).reverse) : item ∈ items ∨ item = new := by
  simpa using List.mem_or_eq_of_mem_set (List.mem_reverse.1 member)

namespace BlockStack

variable {stack : BlockStack} {block : Block} {entries : List Block}

@[simp] theorem held_cons (limit : Nat) : (⟨block :: entries, limit⟩ : BlockStack).held =
    block.locals.held + (⟨entries, limit⟩ : BlockStack).held := rfl

@[simp] theorem held_nil (limit : Nat) : (⟨[], limit⟩ : BlockStack).held = 0 := rfl

theorem held_setAt {height : Nat} {old : Block} (found : stack.at? height = some old) :
    (stack.setAt height block).held + old.locals.held = stack.held + block.locals.held :=
  sum_setFromEnd (fun block => block.locals.held) found

theorem Ordered.setAt (ordered : stack.Ordered) (own : block.locals.Ordered) (height : Nat) :
    (stack.setAt height block).Ordered := by
  intro other member
  rcases mem_setFromEnd member with member | rfl
  · exact ordered other member
  · exact own

/-- Leaving all blocks drops all their locals. -/
theorem drops_releaseAll (stack : BlockStack) : Heap.Drops stack.releaseAll stack.held :=
  Heap.Drops.forM (fun block => block.locals.drops_releaseAll) stack.entries

end BlockStack

namespace CallStack

variable {stack : CallStack} {call : Call} {entries : List Call}

@[simp] theorem held_cons (limit : Nat) : (⟨call :: entries, limit⟩ : CallStack).held =
    call.blocks.held + (⟨entries, limit⟩ : CallStack).held := rfl

theorem held_setAt {height : Nat} {old : Call} (found : stack.at? height = some old) :
    (stack.setAt height call).held + old.blocks.held = stack.held + call.blocks.held :=
  sum_setFromEnd (fun call => call.blocks.held) found

theorem Ordered.setAt (ordered : stack.Ordered) (own : call.blocks.Ordered) (height : Nat) :
    (stack.setAt height call).Ordered := by
  intro other member
  rcases mem_setFromEnd member with member | rfl
  · exact ordered other member
  · exact own

theorem held_setTopBlocks {blocks : BlockStack} (shape : stack.entries = call :: entries) :
    (stack.setTopBlocks blocks).held + call.blocks.held = stack.held + blocks.held := by
  simp only [held, setTopBlocks, shape, List.map_cons, List.sum_cons]
  abel

theorem Ordered.setTopBlocks {blocks : BlockStack} (ordered : stack.Ordered)
    (own : blocks.Ordered) : (stack.setTopBlocks blocks).Ordered := by
  unfold CallStack.setTopBlocks
  split
  case h_1 first rest shape =>
    intro other member
    rcases List.mem_cons.1 member with rfl | member
    · exact own
    · exact ordered other (shape ▸ List.mem_cons_of_mem _ member)
  case h_2 => exact ordered

/-- The innermost block is the first of the first call. -/
theorem topBlock?_eq_some {block : Block} (top : stack.topBlock? = some block) :
    ∃ call callers outer, stack.entries = call :: callers ∧ call.blocks.entries = block :: outer := by
  obtain ⟨call, first, top⟩ := Option.bind_eq_some_iff.1 top
  obtain ⟨callers, shape⟩ := List.head?_eq_some_iff.1 first
  obtain ⟨outer, blocks⟩ := List.head?_eq_some_iff.1 top
  exact ⟨call, callers, outer, shape, blocks⟩

theorem held_setTopBlock {block old : Block} (top : stack.topBlock? = some old) :
    (stack.setTopBlock block).held + old.locals.held = stack.held + block.locals.held := by
  obtain ⟨call, callers, outer, shape, blocks⟩ := topBlock?_eq_some top
  simp only [held, setTopBlock, shape, BlockStack.held, BlockStack.setTop, blocks, List.map_cons,
    List.sum_cons, List.drop_succ_cons, List.drop_zero]
  abel

theorem Ordered.setTopBlock {block : Block} (ordered : stack.Ordered) (own : block.locals.Ordered) :
    (stack.setTopBlock block).Ordered := by
  unfold CallStack.setTopBlock
  split
  case h_1 first rest shape =>
    intro other member
    rcases List.mem_cons.1 member with rfl | member
    · intro inner member
      rcases List.mem_cons.1 member with rfl | member
      · exact own
      · exact ordered first (shape ▸ List.mem_cons_self) inner (List.mem_of_mem_drop member)
    · exact ordered other (shape ▸ List.mem_cons_of_mem _ member)
  case h_2 => exact ordered

theorem Ordered.topBlock? {block : Block} (ordered : stack.Ordered)
    (top : stack.topBlock? = some block) : block.locals.Ordered := by
  obtain ⟨call, callers, outer, shape, blocks⟩ := topBlock?_eq_some top
  exact ordered call (shape ▸ List.mem_cons_self) block (blocks ▸ List.mem_cons_self)

theorem drops_releaseAll (stack : CallStack) : Heap.Drops stack.releaseAll stack.held :=
  Heap.Drops.forM (fun call => call.blocks.drops_releaseAll) stack.entries

end CallStack

end Terrain
