import TypedExpr.Proofs.Extent
import TypedExpr.Proofs.Positions.Passes
/-!
# Items collected in order

While items are collected there is no `?` among them yet, and every index stands behind what it is
taken of. A member takes indexes and their container away, but puts a value there. A `?` comes with
its branches, after which the expression ends.

* `Item.Free`: an item that may stand anywhere.
* `Parser.Collects`: items that are still collected, or are all there are.
* `Parser.Indexed.collectFrom_mirrors`: **what is collected is in order after every step.**
-/

namespace TypedExpr

/-! ### Items that may stand anywhere -/

/-- Neither an index nor a `?`. -/
structure Item.Free (item : Item) : Prop where
  index : item.isIndex = false
  choice : item.operator? ≠ some .question

namespace Item

variable {item : Item} {items below : List Item}

theorem free_value (e : Expr) (span : Span) (line : Nat) : Free ⟨.value e, span, line⟩ :=
  ⟨rfl, nofun⟩

theorem free_typeName (t : Ty) (span : Span) (line : Nat) : Free ⟨.typeName t, span, line⟩ :=
  ⟨rfl, nofun⟩

theorem free_cast (t : Ty) (span : Span) (line : Nat) : Free ⟨.cast t, span, line⟩ :=
  ⟨rfl, nofun⟩

theorem Free.growing (h : item.Free) (hb : Growing below) : Growing (item :: below) := by
  refine .cons h.choice (fun hi => ?_) hb
  rw [h.index] at hi
  cases hi

end Item

namespace Parser

open TypedExpr.Item (Free Growing Orderly)

variable {s : Setting} {sub : Parser (Option Expr)} {p q : ParseState} {items : List Item}

/-! ### Items that are built -/

theorem globalCall_free (name : String) (typeArgs : List TypeRef) (token : Token) :
    Gives Free (globalCall s sub name typeArgs token) := by
  refine .bind fun _ => .ite .refuse ?_
  refine .bind fun _ => .bind fun _ => .bind fun _ => ?_
  exact .bind fun _ => .bind fun _ => .bind fun _ => .pure (Item.free_value _ _ _)

theorem member_free (owner : Owner) : Gives Free (member s sub owner) := by
  refine .bind fun token => ?_
  split
  · refine .bind fun _ => .bind fun _ => .ite ?_ ?_
    · refine .bind fun _ => .bind fun _ => .bind fun _ => .bind fun _ => .bind fun _ => ?_
      exact .bind fun _ => .pure (Item.free_value _ _ _)
    · refine .bind fun _ => ?_
      dsimp only
      split
      · exact .bind fun _ => .pure (Item.free_value _ _ _)
      · exact .ite .throw .throw
  · exact .refuse

theorem newArray_free (start : Token) (elem : Ty) (count : Option Expr) (stop : Span) :
    Gives Free (newArray s sub start elem count stop) :=
  .bind fun _ => .bind fun _ => .bind fun _ => .bind fun _ => .bind fun _ =>
    .pure (Item.free_value _ _ _)

theorem newObject_free (start typeToken : Token) (type : Ty) :
    Gives Free (newObject s sub start typeToken type) :=
  .bind fun _ => .bind fun _ => .bind fun _ => .bind fun _ => .bind fun _ =>
    .pure (Item.free_value _ _ _)

theorem construct_free : Gives Free (construct s sub) := by
  refine .bind fun start => .bind fun typeToken => ?_
  split
  · exact .bind fun _ => .bind fun _ => newArray_free _ _ _ _
  · refine .bind fun _ => .bind fun _ => .bind fun _ => .ite ?_ (newObject_free _ _ _)
    exact .bind fun _ => .bind fun _ => .bind fun _ => newArray_free _ _ _ _
  · exact .refuse

theorem collectName_free (name : String) (typeArgs : List TypeRef) (token : Token) :
    Gives Free (collectName s sub name typeArgs token) := by
  unfold collectName
  split
  · rename_i c _
    cases c with
    | str text => exact .bind fun _ => .bind fun _ => .pure (Item.free_value _ _ _)
    | _ => exact .bind fun _ => .pure (Item.free_value _ _ _)
  · exact .bind fun _ => .pure (Item.free_value _ _ _)
  · exact globalCall_free _ _ _
  · refine .ite (globalCall_free _ _ _) (.ite ?_ .refuse)
    exact .bind fun _ => .pure (Item.free_typeName _ _ _)

/-! ### Members -/

theorem attach_free {container : Item} (brackets : List Item) (h : container.Free) :
    Gives Free (brackets.foldlM (fun container bracket =>
      match bracket.kind with
      | .index i => buildIndex s container i bracket
      | _ => pure container) container) := by
  induction brackets generalizing container with
  | nil => exact .pure h
  | cons bracket brackets ih =>
    intro p item q hp
    rw [List.foldlM_cons] at hp
    obtain ⟨element, p₁, he, hp⟩ := run_bind_ok.1 hp
    refine ih ?_ p₁ item q hp
    split at he
    · obtain ⟨e, -, rfl⟩ := buildIndex_ok he
      exact Item.free_value _ _ _
    · cases he
      exact h

theorem not_isIndex_of_dropWhile {container : Item} {below : List Item}
    (h : items.dropWhile (·.isIndex) = container :: below) : container.isIndex = false := by
  have := List.head?_dropWhile_not (·.isIndex) items
  rw [h] at this
  simpa using this

theorem Indexed.attachIndexes_mirrors {amiss : (α : Type) → Parser α} (h : Growing items) :
    Mirrors p (fun items' below _ => items' = below.reverse ∧ Growing below)
      (Indexed.attachIndexes s amiss items.reverse) (Parser.attachIndexes s items) := by
  have hgrowing : Growing (items.dropWhile (·.isIndex)) := h.dropWhile _
  have hcontainer := @not_isIndex_of_dropWhile items
  have hall := reverse_eq_append items
  unfold Indexed.attachIndexes Parser.attachIndexes
  rw [List.reverse_reverse, hall]
  generalize items.takeWhile (·.isIndex) = brackets at hall ⊢
  generalize items.dropWhile (·.isIndex) = rest at hgrowing hcontainer hall ⊢
  have hstart : (rest.reverse ++ brackets.reverse).length - brackets.length =
      rest.reverse.length := by simp
  rw [hstart]
  generalize brackets.reverse = brackets
  dsimp only
  rw [List.drop_left, List.take_left, List.getLast?_reverse]
  cases brackets with
  | nil =>
    rw [List.append_nil, if_pos rfl]
    exact .pure ⟨rfl, hgrowing⟩
  | cons bracket brackets =>
    rw [if_neg (by simp)]
    cases rest with
    | nil => exact .refuse
    | cons container below =>
      cases hgrowing with
      | cons hq _ hbelow =>
        refine .next fun element q he => ?_
        have hfree : element.Free := attach_free _ ⟨hcontainer rfl, hq⟩ _ _ _ he
        have hgrowing := hfree.growing hbelow
        have hitems : (container :: below).reverse.dropLast ++ [element] =
            (element :: below).reverse := by simp
        rw [hitems, inOrder, if_pos hgrowing.orderly]
        exact .pure ⟨rfl, hgrowing⟩

theorem ownerOf_growing {dot : Token} {owner : Owner} {below : List Item} (h : Growing items)
    (hr : (ownerOf dot items).run p = (.ok (owner, below), q)) : Growing below := by
  cases h with
  | nil => cases hr
  | cons hq hi hb =>
    unfold ownerOf at hr
    dsimp only at hr
    split at hr
    · obtain ⟨_, _, -, hr⟩ := run_bind_ok.1 hr
      cases hr
      exact hb
    · cases hr
      exact hb
    · cases hr

theorem Indexed.collectMember_mirrors {amiss : (α : Type) → Parser α} (h : Growing items) :
    Mirrors p (fun items' items'' _ => items' = items'' ∧ Growing items'')
      (Indexed.collectMember s amiss sub items) (Parser.collectMember s sub items) := by
  refine .next fun dot q _ => (attachIndexes_mirrors h).bind ?_
  rintro _ items' q ⟨rfl, hgrowing⟩
  rw [List.reverse_reverse]
  refine .next ?_
  rintro ⟨owner, below⟩ r hr
  refine .next fun item r hitem => .pure ⟨rfl, ?_⟩
  exact (member_free owner _ _ _ hitem).growing (ownerOf_growing hgrowing hr)

/-! ### The next item -/

/-- The items are still collected; or they are all there are, and the expression ends. -/
def Collects (s : Setting) (items : List Item) (q : ParseState) : Prop :=
  Growing items ∨ Orderly items.reverse ∧ (s.kindAt q).isTerminator = true

theorem collectGroup_growing (h : Growing items) : Gives Growing (collectGroup s sub items) := by
  refine .bind fun opened => .bind fun _ => .bind fun _ => ?_
  split
  · exact .bind fun _ => .bind fun _ => .bind fun _ => .pure ((Item.free_cast _ _ _).growing h)
  · exact .bind fun _ => .bind fun _ => .pure ((Item.free_value _ _ _).growing h)

theorem collectIndex_growing (h : Growing items) : Gives Growing (collectIndex s sub items) := by
  refine .bind fun opened => ?_
  split
  · exact .refuse
  · rename_i hcan
    refine .bind fun _ => .bind fun _ => .bind fun _ => .pure ?_
    exact .cons nofun (fun _ => by simpa using hcan) h

theorem collectLiteral_growing (form : Form Expr) (type : Ty) (h : Growing items) :
    Gives Growing (collectLiteral s form type items) :=
  .bind fun _ => .bind fun _ => .pure ((Item.free_value _ _ _).growing h)

theorem collectTernary_collects (hsub : Local s s.tokens sub sub) (h : Growing items) {items' : List Item}
    (hr : (collectTernary s sub items).run p = (.ok items', q)) :
    Orderly items'.reverse ∧ (s.kindAt q).isTerminator = true := by
  obtain ⟨question, p₁, -, hr⟩ := run_bind_ok.1 hr
  obtain ⟨yes, p₂, -, hr⟩ := run_bind_ok.1 hr
  obtain ⟨b, p₃, -, hr⟩ := run_bind_ok.1 hr
  split at hr
  · cases hr
  · obtain ⟨no, p₄, hno, hr⟩ := run_bind_ok.1 hr
    cases hr
    exact ⟨h.choice rfl rfl rfl, hsub.valueExpression_ends hno⟩

/-- A step that gives one more item. -/
theorem Gives.collects {x : Parser Item} (hx : Gives Free x) (h : Growing items)
    {items' : List Item} (hr : (do return (← x) :: items : Parser _).run p = (.ok items', q)) :
    Growing items' := by
  obtain ⟨item, _, hi, hr⟩ := run_bind_ok.1 hr
  cases hr
  exact (hx _ _ _ hi).growing h

theorem collectNext_collects (hsub : Local s s.tokens sub sub) (h : Growing items) (hdot : s.kindAt p ≠ .dot)
    {items' : List Item} (hr : (collectNext s sub items).run p = (.ok items', q)) :
    Collects s items' q := by
  obtain ⟨token, _, ht, hr⟩ := run_bind_ok.1 hr
  cases ht
  split at hr
  · exact .inl (collectGroup_growing h _ _ _ hr)
  · exact .inl (collectIndex_growing h _ _ _ hr)
  · exact absurd ‹_› hdot
  · exact .inr (collectTernary_collects hsub h hr)
  · exact .inl (construct_free.collects h hr)
  iterate 4
    exact .inl (collectLiteral_growing _ _ h _ _ _ hr)
  · obtain ⟨_, _, -, hr⟩ := run_bind_ok.1 hr
    exact .inl ((collectName_free _ _ _).collects h hr)
  · obtain ⟨_, _, -, hr⟩ := run_bind_ok.1 hr
    obtain ⟨type, _, -, hr⟩ := run_bind_ok.1 hr
    cases hr
    exact .inl ((Item.free_typeName _ _ _).growing h)
  · rename_i op hq _
    obtain ⟨_, _, -, hr⟩ := run_bind_ok.1 hr
    cases hr
    exact .inl (Growing.cons (fun he => hq (Option.some.inj he)) nofun h)
  · cases hr

namespace Indexed

variable {amiss : (α : Type) → Parser α}

theorem collectNext_mirrors (hsub : Local s s.tokens sub sub) (h : Growing items) :
    Mirrors p (fun items' items'' q => items' = items'' ∧ Collects s items'' q)
      (collectNext s amiss sub items) (Parser.collectNext s sub items) := by
  have hcurrent : (current s).run p = (.ok (s.tokens.get p.position), p) := rfl
  unfold Mirrors collectNext
  rw [run_bind_of_ok hcurrent]
  by_cases hdot : (s.tokens.get p.position).kind = .dot
  · have hnext : (Parser.collectNext s sub items).run p =
        (Parser.collectMember s sub items).run p := by
      rw [Parser.collectNext, run_bind_of_ok hcurrent, hdot]
    rw [if_pos hdot, hnext]
    exact (collectMember_mirrors h).mono fun _ _ _ hg => ⟨hg.1, .inl hg.2⟩
  · rw [if_neg hdot]
    exact Mirrors.same fun items' q hr => ⟨rfl, collectNext_collects hsub h hdot hr⟩

/-- At a token that ends the expression nothing more is collected. -/
theorem collectFrom_ends (ho : Orderly items.reverse) (h : (s.kindAt p).isTerminator = true)
    (n : Nat) : Mirrors p Kept (collectFrom s amiss sub n items)
      (Parser.collectFrom s sub n items) := by
  cases n with
  | zero => exact .pure ⟨rfl, ho⟩
  | succ n =>
    refine .next fun token q ht => ?_
    cases ht
    exact .ite (fun _ => .pure ⟨rfl, ho⟩) fun hopen => absurd h hopen

/-- **What is collected is in order after every step.** -/
theorem collectFrom_mirrors (hsub : Local s s.tokens sub sub) (n : Nat) (h : Growing items) :
    Mirrors p Kept (collectFrom s amiss sub n items) (Parser.collectFrom s sub n items) := by
  induction n generalizing items p with
  | zero => exact .pure ⟨rfl, h.orderly⟩
  | succ n ih =>
    refine .next fun token q _ => .ite (fun _ => .pure ⟨rfl, h.orderly⟩) fun _ => ?_
    refine (collectNext_mirrors hsub h).bind ?_
    rintro items' _ r ⟨rfl, hgrowing | ⟨ho, hends⟩⟩
    · rw [inOrder, if_pos hgrowing.orderly, pure_bind]
      exact ih hgrowing
    · rw [inOrder, if_pos ho, pure_bind]
      exact collectFrom_ends ho hends n

end Indexed

end Parser

end TypedExpr
