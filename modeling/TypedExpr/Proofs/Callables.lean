import TypedExpr.Proofs.Soundness.Declared
/-!
# The numbers of callables

Callables are numbered in the order in which they are added, and what comes later changes none that
are there. So the callables of the standard registry have the same numbers in every registry that an
application builds on it.

* `Build.Adds`: the functions that a step of construction adds, in order.
* `Registry.functionList_declared`: in every registry the functions that are built in come first.
* `Registry.callable?_declared_text`, `Registry.callable?_declared_collection`,
  `Registry.callable?_declared_abs`: the numbers of the members of `string`, of the functions of
  the collections, and of the two functions that take away the sign of a number.
* `Registry.standard_abs`: the last two are what `abs` and `Math.Abs` stand for.
-/

namespace TypedExpr

/-- The functions behind the callables, by number. -/
def Registry.functionList (reg : Registry) : List HostFunction :=
  reg.callables.toList.map (·.function)

theorem Registry.function_of_getElem? {reg : Registry} {id : CallableId} {f : HostFunction}
    (h : reg.functionList[id]? = some f) : ∃ name, reg.callable? id = some ⟨name, f⟩ := by
  simp only [functionList, List.getElem?_map, Option.map_eq_some_iff, Array.getElem?_toList] at h
  obtain ⟨⟨name, _⟩, hc, rfl⟩ := h
  exact ⟨name, hc⟩

namespace Build

variable {α β : Type} {f g : HostFunction} {fs gs : List HostFunction}

/-- The step adds these functions to those that are there. -/
def Adds (fs : List HostFunction) (m : Build α) : Prop :=
  ∀ b, (m.run b).2.registry.functionList = b.registry.functionList ++ fs

theorem Adds.bind {m : Build α} {k : α → Build β} (hm : Adds fs m) (hk : ∀ a, Adds gs (k a)) :
    Adds (fs ++ gs) (m >>= k) := by
  intro b
  rw [← List.append_assoc, ← hm b]
  exact hk _ _

theorem adds_nil {m : Build α} (h : ∀ b, (m.run b).2.registry.callables = b.registry.callables) :
    Adds [] m := by
  intro b
  rw [List.append_nil, Registry.functionList, h]
  rfl

theorem adds_one {m : Build α}
    (h : ∀ b, ∃ name, (m.run b).2.registry.callables = b.registry.callables.push ⟨name, f⟩) :
    Adds [f] m := by
  intro b
  obtain ⟨name, h⟩ := h b
  rw [Registry.functionList, h, Array.toList_push, List.map_append]
  rfl

theorem adds_two {m : Build α}
    (h : ∀ b, ∃ name name', (m.run b).2.registry.callables =
      (b.registry.callables.push ⟨name, f⟩).push ⟨name', g⟩) : Adds [f, g] m := by
  intro b
  obtain ⟨name, name', h⟩ := h b
  rw [Registry.functionList, h, Array.toList_push, Array.toList_push, List.map_append,
    List.map_append, List.append_assoc]
  rfl

section

variable {name : String} {d : DefId} {sigs : List TypeSig} {sig : TypeSig}

theorem adds_noteType {t : Ty} : Adds [] (noteType t) := adds_nil fun _ => rfl

theorem adds_declareGeneric {n : Nat} : Adds [] (declareGeneric name n) := adds_nil fun _ => rfl

theorem adds_constructor : Adds [f] (constructor d sigs f) := adds_one fun _ => ⟨_, rfl⟩

theorem adds_genericMethod {n : Nat} {isStatic : Bool} :
    Adds [f] (genericMethod d name n isStatic sigs sig f) := adds_one fun _ => ⟨_, rfl⟩

theorem adds_method : Adds [f] (method d name sigs sig f) := adds_genericMethod

theorem adds_staticMethod : Adds [f] (staticMethod d name sigs sig f) := adds_genericMethod

theorem adds_property : Adds [f] (property d name sig f) := adds_one fun _ => ⟨_, rfl⟩

theorem adds_staticProperty : Adds [f] (staticProperty d name sig f) := adds_one fun _ => ⟨_, rfl⟩

theorem adds_indexer {s : TypeSig} : Adds [f, g] (indexer d s sig f (some g)) :=
  adds_two fun _ => ⟨_, _, rfl⟩

theorem adds_insertion {kind : InsertKind} : Adds [f] (insertion d kind sig name f) :=
  adds_one fun _ => ⟨_, rfl⟩

theorem adds_function {n : Nat} : Adds [f] (function name n sigs sig f) :=
  adds_one fun _ => ⟨_, rfl⟩

end

/-- Whatever is declared, functions are only added. -/
theorem exists_adds (decl : Declaration) : ∃ fs, Adds fs decl.build := by
  cases decl with
  | type name | generic name arity | base d t => exact ⟨_, adds_nil fun _ => rfl⟩
  | settableProperty d name sig get set => exact ⟨_, adds_two fun _ => ⟨_, _, rfl⟩⟩
  | indexer d index elem get set =>
    cases set with
    | none => exact ⟨_, adds_one fun _ => ⟨_, rfl⟩⟩
    | some set => exact ⟨_, adds_indexer⟩
  | _ => exact ⟨_, adds_one fun _ => ⟨_, rfl⟩⟩

theorem exists_adds_forM (decls : List Declaration) :
    ∃ fs, Adds fs (decls.forM Declaration.build) := by
  induction decls with
  | nil => exact ⟨_, adds_nil fun _ => rfl⟩
  | cons decl decls ih =>
    obtain ⟨fs, hfs⟩ := exists_adds decl
    obtain ⟨gs, hgs⟩ := ih
    exact ⟨_, hfs.bind fun _ => hgs⟩

end Build

namespace Builtin

open TypedExpr.Build

/-- The functions behind the members of `string`. -/
def textFunctions : List HostFunction :=
  [textLength, textUpper, textLower, textContains, textIndexOf, textFrom, textPart]

theorem adds_addText : Adds textFunctions addText :=
  adds_property.bind fun _ => adds_method.bind fun _ => adds_method.bind fun _ =>
    adds_method.bind fun _ => adds_method.bind fun _ => adds_method.bind fun _ => adds_method

theorem adds_addArray : ∃ fs, Adds fs addArray ∧ fs.length = 3 :=
  ⟨_, adds_property.bind fun _ => adds_indexer, rfl⟩

theorem adds_addMath :
    ∃ fs, Adds fs addMath ∧ fs.length = 22 ∧ fs[2]? = some absInt ∧ fs[16]? = some absInt :=
  ⟨_, adds_declareGeneric.bind fun _ => adds_noteType.bind fun _ =>
    adds_staticProperty.bind fun _ => adds_staticProperty.bind fun _ =>
    adds_staticMethod.bind fun _ => adds_staticMethod.bind fun _ =>
    adds_staticMethod.bind fun _ => adds_staticMethod.bind fun _ =>
    adds_staticMethod.bind fun _ => adds_staticMethod.bind fun _ =>
    adds_staticMethod.bind fun _ => adds_staticMethod.bind fun _ =>
    adds_staticMethod.bind fun _ => adds_staticMethod.bind fun _ =>
    adds_staticMethod.bind fun _ => adds_staticMethod.bind fun _ =>
    adds_staticMethod.bind fun _ => adds_declareGeneric.bind fun _ => adds_noteType.bind fun _ =>
    adds_genericMethod.bind fun _ => adds_function.bind fun _ => adds_function.bind fun _ =>
    adds_function.bind fun _ => adds_function.bind fun _ => adds_function.bind fun _ =>
    adds_function, rfl, rfl, rfl⟩

/-- The functions that all collections have. -/
def commonFunctions (kind : Collection) : List HostFunction :=
  [newCollection kind, collectionCount kind, collectionClear kind, collectionContains kind]

/-- The functions of the collections, kind by kind. -/
def collectionFunctions : List HostFunction :=
  commonFunctions .list ++ [listAdd, listAdd, listGet, listSet] ++
    (commonFunctions .stack ++ [stackPush, stackPush, stackPop, stackPeek] ++
      (commonFunctions .queue ++ [queueEnqueue, queueEnqueue, queueDequeue, queuePeek] ++
        (commonFunctions .set ++ [setAdd, setAdd])))

theorem adds_addCommon (d : DefId) (kind : Collection) :
    Adds (commonFunctions kind) (addCommon d kind) :=
  adds_constructor.bind fun _ => adds_property.bind fun _ => adds_method.bind fun _ => adds_method

theorem adds_addCollections : Adds collectionFunctions addCollections :=
  adds_declareGeneric.bind fun _ => (adds_addCommon _ .list).bind fun _ => adds_method.bind fun _ =>
    adds_insertion.bind fun _ => adds_indexer.bind fun _ =>
    adds_declareGeneric.bind fun _ => (adds_addCommon _ .stack).bind fun _ =>
    adds_method.bind fun _ => adds_insertion.bind fun _ => adds_method.bind fun _ =>
    adds_method.bind fun _ =>
    adds_declareGeneric.bind fun _ => (adds_addCommon _ .queue).bind fun _ =>
    adds_method.bind fun _ => adds_insertion.bind fun _ => adds_method.bind fun _ =>
    adds_method.bind fun _ =>
    adds_declareGeneric.bind fun _ => (adds_addCommon _ .set).bind fun _ =>
    adds_method.bind fun _ => adds_insertion

end Builtin

namespace Registry

open TypedExpr.Build TypedExpr.Builtin

/-- In every registry the functions that are built in come first. -/
theorem functionList_declared (decls : List Declaration) :
    ∃ array math more, array.length = 3 ∧ math.length = 22 ∧
      math[2]? = some absInt ∧ math[16]? = some absInt ∧
      (declared decls).functionList =
        textFunctions ++ (array ++ (math ++ (collectionFunctions ++ more))) := by
  obtain ⟨array, harray, larray⟩ := adds_addArray
  obtain ⟨math, hmath, lmath, habs, habs'⟩ := adds_addMath
  obtain ⟨more, hmore⟩ := exists_adds_forM decls
  have hall : (declared decls).functionList =
      (textFunctions ++ (array ++ (math ++ collectionFunctions))) ++ more :=
    ((adds_addText.bind fun _ => harray.bind fun _ => hmath.bind fun _ =>
      adds_addCollections).bind fun _ => hmore) Builder.primitive
  refine ⟨array, math, more, larray, lmath, habs, habs', ?_⟩
  rw [hall]
  simp only [List.append_assoc]

/-- The members of `string` have the first numbers. -/
theorem callable?_declared_text (decls : List Declaration) {i : Nat} {f : HostFunction}
    (h : textFunctions[i]? = some f) :
    ∃ name, (declared decls).callable? i = some ⟨name, f⟩ := by
  obtain ⟨array, math, more, -, -, -, -, hall⟩ := functionList_declared decls
  refine function_of_getElem? ?_
  rw [hall, List.getElem?_append_left (List.getElem?_eq_some_iff.mp h).1, h]

/-- The functions of the collections follow those on numbers. -/
theorem callable?_declared_collection (decls : List Declaration) {i : Nat} {f : HostFunction}
    (h : collectionFunctions[i]? = some f) :
    ∃ name, (declared decls).callable? (32 + i) = some ⟨name, f⟩ := by
  obtain ⟨array, math, more, larray, lmath, -, -, hall⟩ := functionList_declared decls
  have ltext : textFunctions.length = 7 := rfl
  refine function_of_getElem? ?_
  rw [hall, List.getElem?_append_right (by omega), List.getElem?_append_right (by omega),
    List.getElem?_append_right (by omega),
    List.getElem?_append_left (by have := (List.getElem?_eq_some_iff.mp h).1; omega), ← h]
  congr 1
  omega

/-- In a registry that has all that is built in, the numbers of the two functions that take away the
sign of an integer are known. -/
theorem callable?_declared_abs (decls : List Declaration) :
    (∃ name, (declared decls).callable? 12 = some ⟨name, absInt⟩) ∧
      ∃ name, (declared decls).callable? 26 = some ⟨name, absInt⟩ := by
  obtain ⟨array, math, more, larray, -, habs, habs', hall⟩ := functionList_declared decls
  have ltext : textFunctions.length = 7 := rfl
  have hmem {i : Nat} {f : HostFunction} (h : math[i]? = some f) :
      (declared decls).functionList[10 + i]? = some f := by
    have hi := (List.getElem?_eq_some_iff.mp h).1
    rw [hall, List.getElem?_append_right (by omega), List.getElem?_append_right (by omega),
      List.getElem?_append_left (by omega), ← h]
    congr 1
    omega
  exact ⟨function_of_getElem? (hmem habs), function_of_getElem? (hmem habs')⟩

/-- In the standard registry they are what `Math.Abs` and `abs` stand for, at an integer. -/
theorem standard_abs :
    (declared []).resolveType (.named "Math" []) = .ok (.named 2 []) ∧
      ((declared []).resolveMethod (.named 2 []) "Abs" [] [.int] true).map (·.callable) = .ok 12 ∧
      ((declared []).resolveFunction "abs" [] [.int]).map (·.callable) = .ok 26 :=
  ⟨by decide +kernel, by decide +kernel, by decide +kernel⟩

end Registry

end TypedExpr
