import TypedExpr.Proofs.Soundness.Members
/-!
# The standard registry is safe

All callables that are built in work in every registry in which only types of the application are
bases.

* `Build.keeps_standard`: the construction of the standard registry keeps all callables working.
-/

namespace TypedExpr

open TypedExpr.Build

variable {reg : Registry} (hr : reg.Rooted) {n : Nat}

namespace Builtin

include hr

theorem keeps_addText : Keeps reg n n addText := by
  refine (keeps_property fun ht l vs label h => ?_).bind ?_
  · refine (HostCall.keeps_str h hr rfl ht _).bind ?_
    rintro _ s - rfl
    exact .pure (has_int _)
  refine (keeps_method fun ht l vs label h => ?_).bind ?_
  · refine (HostCall.keeps_str h hr rfl ht _).bind ?_
    rintro _ s - rfl
    exact .pure (has_str _)
  refine (keeps_method fun ht l vs label h => ?_).bind ?_
  · refine (HostCall.keeps_str h hr rfl ht _).bind ?_
    rintro _ s - rfl
    exact .pure (has_str _)
  refine (keeps_method fun ht l vs label h => ?_).bind ?_
  · refine (HostCall.keeps_str h hr rfl ht _).bind ?_
    rintro _ s - rfl
    refine (HostCall.keeps_str h hr rfl rfl _).bind ?_
    rintro _ needle - rfl
    exact .pure (has_bool _)
  refine (keeps_method fun ht l vs label h => ?_).bind ?_
  · refine (HostCall.keeps_str h hr rfl ht _).bind ?_
    rintro _ s - rfl
    refine (HostCall.keeps_str h hr rfl rfl _).bind ?_
    rintro _ needle - rfl
    split
    · exact .pure (has_int _)
    · exact .pure (has_int _)
  refine (keeps_method fun ht l vs label h => ?_).bind ?_
  · refine (HostCall.keeps_str h hr rfl ht _).bind ?_
    rintro _ s - rfl
    refine (HostCall.keeps_int h hr rfl _).bind ?_
    rintro _ start - rfl
    exact HostM.keeps_lift (yields_substring s start _)
  refine keeps_method fun ht l vs label h => ?_
  refine (HostCall.keeps_str h hr rfl ht _).bind ?_
  rintro _ s - rfl
  refine (HostCall.keeps_int h hr rfl _).bind ?_
  rintro _ start - rfl
  refine (HostCall.keeps_int h hr rfl _).bind ?_
  rintro _ count - rfl
  exact HostM.keeps_lift (yields_substring s start count)

theorem keeps_addArray : Keeps reg n n addArray := by
  refine (keeps_property fun ht l vs label h => ?_).bind ?_
  · refine (HostCall.keeps_array h hr rfl ht _).bind ?_
    rintro _ place - -
    refine Discipline.Keeps.get.bind ?_
    intro _ heap _ _
    exact .pure (has_int _)
  refine keeps_indexer (fun ht l vs label h => ?_) (fun hs ht l vs label h => ?_)
  · refine (HostCall.keeps_array h hr rfl ht _).bind ?_
    rintro _ place - ⟨rfl, hplace⟩
    refine (HostCall.keeps_int h hr rfl _).bind ?_
    rintro _ index - rfl
    refine Discipline.Keeps.get.bind ?_
    rintro _ heap - ⟨rfl, hheap⟩
    exact HostM.keeps_lift ((yields_itemAt _).mono (Heap.Typed.elems hheap hplace))
  · cases hs
    refine (HostCall.keeps_array h hr rfl ht _).bind ?_
    rintro _ place - ⟨rfl, hplace⟩
    refine (HostCall.keeps_int h hr rfl _).bind ?_
    rintro _ index - rfl
    refine (HostCall.keeps_arg h rfl _).bind ?_
    rintro _ v - ⟨rfl, hv⟩
    refine Discipline.Keeps.get.bind ?_
    rintro l' heap - ⟨rfl, hheap⟩
    refine (HostM.keeps_lift
      (Q := fun l'' replaced => l'' = l' ∧ ∀ w ∈ replaced, w = v ∨ w ∈ heap.elems place)
      ((yields_replaceAt _ v).mono fun _ hw => ⟨rfl, hw⟩)).bind ?_
    rintro _ replaced - ⟨rfl, hreplaced⟩
    refine Discipline.Keeps.bind (Q := fun _ _ => True) (.modify (fun s hs => ?_) trivial)
      fun _ _ _ _ => .pure has_void
    refine Heap.Typed.setElems hs hplace fun w hw => ?_
    rcases hreplaced w hw with rfl | hw
    · exact hv
    · exact Heap.Typed.elems hheap hplace w hw

theorem keeps_addMath : Keeps reg n (n + 2) addMath := by
  refine keeps_declareGeneric (keeps_noteType.bind ?_)
  refine (keeps_staticProperty fun _ => safe_constant _).bind ?_
  refine (keeps_staticProperty fun _ => safe_constant _).bind ?_
  refine (keeps_staticMethod fun _ => safe_absInt hr).bind ?_
  refine (keeps_staticMethod fun _ => safe_doubleFunction hr _ _).bind ?_
  refine (keeps_staticMethod fun _ => safe_intFunction₂ hr _ _).bind ?_
  refine (keeps_staticMethod fun _ => safe_doubleFunction₂ hr _ _).bind ?_
  refine (keeps_staticMethod fun _ => safe_intFunction₂ hr _ _).bind ?_
  refine (keeps_staticMethod fun _ => safe_doubleFunction₂ hr _ _).bind ?_
  refine (keeps_staticMethod fun _ => safe_doubleFunction₂ hr _ _).bind ?_
  refine (keeps_staticMethod fun _ => safe_doubleFunction hr _ _).bind ?_
  refine (keeps_staticMethod fun _ => safe_doubleFunction hr _ _).bind ?_
  refine (keeps_staticMethod fun _ => safe_doubleFunction hr _ _).bind ?_
  refine (keeps_staticMethod fun _ => safe_doubleFunction hr _ _).bind ?_
  refine (keeps_staticMethod fun _ => safe_clampInt hr).bind ?_
  refine (keeps_staticMethod fun _ => safe_clampDouble hr).bind ?_
  refine keeps_declareGeneric (keeps_noteType.bind ?_)
  refine (keeps_genericMethod fun _ _ => safe_repeatValue hr _).bind ?_
  refine (keeps_function fun _ => safe_absInt hr).bind ?_
  refine (keeps_function fun _ => safe_doubleFunction hr _ _).bind ?_
  refine (keeps_function fun _ => safe_intFunction₂ hr _ _).bind ?_
  refine (keeps_function fun _ => safe_doubleFunction₂ hr _ _).bind ?_
  refine (keeps_function fun _ => safe_intFunction₂ hr _ _).bind ?_
  exact keeps_function fun _ => safe_doubleFunction₂ hr _ _

omit hr in
theorem eq_named_of_defOf? (kind : Collection) {t : Ty} {args : List Ty}
    (h : Registry.defOf? t = some (kind.place, args)) : t = .named kind.place args := by
  cases t with
  | named => cases h; rfl
  | string | array => cases kind <;> cases h
  | _ => cases h

theorem keeps_addCommon (kind : Collection) : Keeps reg n n (addCommon kind.place kind) := by
  refine (keeps_constructor fun ht => ?_).bind ?_
  · rw [eq_named_of_defOf? kind ht]
    exact safe_newCollection kind
  refine (keeps_property fun ht => ?_).bind ?_
  · rw [eq_named_of_defOf? kind ht]
    exact safe_collectionCount hr kind
  refine (keeps_method fun ht => ?_).bind ?_
  · rw [eq_named_of_defOf? kind ht]
    exact safe_collectionClear hr kind
  refine keeps_method fun ht => ?_
  rw [eq_named_of_defOf? kind ht]
  exact safe_collectionContains hr kind _

theorem keeps_addCollections : Keeps reg Collection.list.place 8 addCollections := by
  refine keeps_declareGeneric ((keeps_addCommon hr .list).bind ?_)
  refine (keeps_method fun ht => ?_).bind ?_
  · rw [eq_named_of_defOf? .list ht]
    exact safe_listAdd hr
  refine (keeps_insertion fun ht => ?_).bind ?_
  · rw [eq_named_of_defOf? .list ht]
    exact safe_listAdd hr
  refine (keeps_indexer (fun ht => ?_) (fun hs ht => ?_)).bind ?_
  · rw [eq_named_of_defOf? .list ht]
    exact safe_listGet hr
  · cases hs
    rw [eq_named_of_defOf? .list ht]
    exact safe_listSet hr
  refine keeps_declareGeneric ((keeps_addCommon hr .stack).bind ?_)
  refine (keeps_method fun ht => ?_).bind ?_
  · rw [eq_named_of_defOf? .stack ht]
    exact safe_stackPush hr
  refine (keeps_insertion fun ht => ?_).bind ?_
  · rw [eq_named_of_defOf? .stack ht]
    exact safe_stackPush hr
  refine (keeps_method fun ht => ?_).bind ?_
  · rw [eq_named_of_defOf? .stack ht]
    exact safe_stackPop hr
  refine (keeps_method fun ht => ?_).bind ?_
  · rw [eq_named_of_defOf? .stack ht]
    exact safe_stackPeek hr
  refine keeps_declareGeneric ((keeps_addCommon hr .queue).bind ?_)
  refine (keeps_method fun ht => ?_).bind ?_
  · rw [eq_named_of_defOf? .queue ht]
    exact safe_queueEnqueue hr
  refine (keeps_insertion fun ht => ?_).bind ?_
  · rw [eq_named_of_defOf? .queue ht]
    exact safe_queueEnqueue hr
  refine (keeps_method fun ht => ?_).bind ?_
  · rw [eq_named_of_defOf? .queue ht]
    exact safe_queueDequeue hr
  refine (keeps_method fun ht => ?_).bind ?_
  · rw [eq_named_of_defOf? .queue ht]
    exact safe_queuePeek hr
  refine keeps_declareGeneric ((keeps_addCommon hr .set).bind ?_)
  refine (keeps_method fun ht => ?_).bind ?_
  · rw [eq_named_of_defOf? .set ht]
    exact safe_setAdd hr _
  refine keeps_insertion fun ht => ?_
  rw [eq_named_of_defOf? .set ht]
  intro l vs label h
  exact (safe_setAdd hr _ l vs label h).mono fun _ _ _ hv => ⟨hv.knows, fun h => absurd rfl h⟩

end Builtin

include hr

/-- The construction of the standard registry keeps all callables working. -/
theorem Build.keeps_standard : Keeps reg 2 8 standard :=
  (Builtin.keeps_addText hr).bind <| (Builtin.keeps_addArray hr).bind <|
    (Builtin.keeps_addMath hr).bind (Builtin.keeps_addCollections hr)

end TypedExpr
