import TypedExpr.Proofs.Typing.Accepted
/-!
# Nodes that are kept

The table of a parser goes along with the nodes it builds: each node is found in it under its
number, with its arguments and its items, and the pool holds the lists of all nodes in the order in
which these were built. There is no table only if the nodes are too many for it, or a list is too
long.

* `NodeTable.add_cases`: all that can happen when a node is kept.
* `NodeTable.Keeps`: the nodes of a table.
* `ParseState.Kept`, `ParseState.Kept.build`: a new node keeps the table in step with the nodes.
-/

namespace TypedExpr

/-- A form is put together from what is kept of it. -/
theorem Form.withLists_self {α : Type} (form : Form α) :
    (form.withLists [] []).withLists form.args form.items = form := by
  cases form <;> rfl

theorem Form.args_map {α β : Type} (f : α → β) (form : Form α) :
    (form.map f).args = form.args.map f := by
  cases form <;> rfl

theorem Form.items_map {α β : Type} (f : α → β) (form : Form α) :
    (form.map f).items = form.items.map f := by
  cases form <;> rfl

/-- The numbers of the parts of an expression that stand in lists. -/
def Expr.listed (e : Expr) : List Nat := (e.form.args ++ e.form.items).map number

/-- All that is put into lists while nodes are built one after the other. -/
def listedIn (nodes : Array Expr) : List Nat := nodes.toList.flatMap Expr.listed

/-- The nodes cannot be kept: they are too many, or their lists are, or one list is too long. -/
def Overfull (nodes : Array Expr) : Prop :=
  UInt32.size < nodes.size ∨ UInt32.size < (listedIn nodes).length ∨
    ∃ e ∈ nodes, UInt16.size ≤ e.form.args.length ∨ UInt16.size ≤ e.form.items.length

namespace NodeTable

variable {table table' : NodeTable} {numbers more : List Nat} {r : ListRange} {form : Form Nat}

/-! ### Lists -/

/-- A range gives the part of the pool that begins where it says and has the length that it says. -/
theorem list?_eq_some_iff : table.list? r = some numbers ↔
    ∃ before after, table.pool.toList = before ++ numbers ++ after ∧
      before.length = r.start.toNat ∧ numbers.length = r.length.toNat := by
  unfold list?
  constructor
  · intro h
    split at h
    · rename_i hr
      have hsize : table.pool.toList.length = table.pool.size := Array.length_toList
      unfold ListRange.stop at hr h
      obtain rfl := Option.some.inj h
      refine ⟨table.pool.toList.take r.start.toNat, table.pool.toList.drop r.stop, ?_, ?_, ?_⟩
      · rw [Array.toList_extract, List.extract_eq_take_drop, Nat.add_sub_cancel_left,
          List.append_assoc, ListRange.stop, ← List.drop_drop, List.take_append_drop,
          List.take_append_drop]
      · rw [List.length_take]
        omega
      · rw [Array.length_toList, Array.size_extract]
        omega
    · cases h
  · rintro ⟨before, after, hp, hstart, hlength⟩
    have hsize : table.pool.size = before.length + numbers.length + after.length := by
      rw [← Array.length_toList, hp, List.length_append, List.length_append]
    have hstop : r.stop = before.length + numbers.length := by
      rw [ListRange.stop, hstart, hlength]
    rw [if_pos (by omega), Array.toList_extract, hp, ← hstart, hstop]
    simp [List.extract]

theorem stop_le (h : table.list? r = some numbers) : r.stop ≤ table.pool.size := by
  obtain ⟨before, after, hp, hstart, hlength⟩ := list?_eq_some_iff.mp h
  rw [← Array.length_toList, hp, List.length_append, List.length_append, ListRange.stop]
  omega

/-- A list stays where it is when more is put into the pool. -/
theorem list?_mono (h : table.list? r = some numbers)
    (hp : table'.pool.toList = table.pool.toList ++ more) : table'.list? r = some numbers := by
  obtain ⟨before, after, htable, hr⟩ := list?_eq_some_iff.mp h
  refine list?_eq_some_iff.mpr ⟨before, after ++ more, ?_, hr⟩
  rw [hp, htable]
  simp

/-- A list is put at the end of the pool, unless it is too long or the pool is too large. -/
theorem putList_cases (table : NodeTable) (numbers : List Nat) :
    (∃ r table', table.putList numbers = .ok (r, table') ∧ table'.nodes = table.nodes ∧
      table'.pool.toList = table.pool.toList ++ numbers ∧ table'.list? r = some numbers) ∨
    ∃ overflow, table.putList numbers = .error overflow ∧
      (UInt16.size ≤ numbers.length ∨ UInt32.size < (table.pool.toList ++ numbers).length) := by
  unfold putList
  split
  · rename_i hnumbers
    subst hnumbers
    refine .inl ⟨_, table, rfl, rfl, (List.append_nil _).symm, ?_⟩
    exact list?_eq_some_iff.mpr ⟨[], table.pool.toList, rfl, rfl, rfl⟩
  · rename_i hnumbers
    have hpos := List.length_pos_iff.mpr hnumbers
    split
    · rename_i hpool
      refine .inr ⟨_, rfl, .inr ?_⟩
      rw [List.length_append, Array.length_toList]
      omega
    · rename_i hpool
      split
      · rename_i hlength
        exact .inr ⟨_, rfl, .inl hlength⟩
      · rename_i hlength
        refine .inl ⟨_, _, rfl, rfl, Array.toList_appendList, ?_⟩
        refine list?_eq_some_iff.mpr ⟨table.pool.toList, [], ?_, ?_, ?_⟩
        · simp
        · exact (UInt32.toNat_ofNat_of_lt' (Nat.lt_of_not_le hpool)).symm
        · exact (UInt16.toNat_ofNat_of_lt' (Nat.lt_of_not_le hlength)).symm

theorem add_eq (table : NodeTable) (form : Form Nat) :
    table.add form = (table.putList form.args).bind fun p =>
      (p.2.putList form.items).bind fun q =>
        if UInt32.size ≤ q.2.nodes.size then .error (.nodes q.2.nodes.size)
        else
          let node : KeptForm := ⟨form.withLists [] [], p.1, q.1, form.withLists_nil⟩
          .ok { q.2 with nodes := q.2.nodes.push node } := rfl

/-- A node is kept with its lists at the end of the pool, unless there are too many nodes, a list is
too long or the pool is too large. -/
theorem add_cases (table : NodeTable) (form : Form Nat) :
    (∃ table' node, table.add form = .ok table' ∧ table'.nodes = table.nodes.push node ∧
      table'.pool.toList = table.pool.toList ++ (form.args ++ form.items) ∧
      node.form = form.withLists [] [] ∧ table'.list? node.args = some form.args ∧
      table'.list? node.items = some form.items) ∨
    ∃ overflow, table.add form = .error overflow ∧
      (UInt32.size ≤ table.nodes.size ∨ UInt16.size ≤ form.args.length ∨
        UInt16.size ≤ form.items.length ∨
        UInt32.size < (table.pool.toList ++ (form.args ++ form.items)).length) := by
  obtain ⟨args, table₁, hargs, hnodes₁, hpool₁, hlist₁⟩ | ⟨overflow, hargs, h⟩ :=
    putList_cases table form.args
  · obtain ⟨items, table₂, hitems, hnodes₂, hpool₂, hlist₂⟩ | ⟨overflow, hitems, h⟩ :=
      putList_cases table₁ form.items
    · have hpool : table₂.pool.toList = table.pool.toList ++ (form.args ++ form.items) := by
        rw [hpool₂, hpool₁, List.append_assoc]
      simp only [add_eq, hargs, hitems, Except.bind, hnodes₂, hnodes₁]
      split
      · rename_i hfull
        exact .inr ⟨_, rfl, .inl hfull⟩
      · exact .inl ⟨_, _, rfl, rfl, hpool, rfl, list?_mono hlist₁ hpool₂, hlist₂⟩
    · refine .inr ⟨overflow, ?_, ?_⟩
      · simp only [add_eq, hargs, hitems, Except.bind]
      · rw [hpool₁, List.append_assoc] at h
        exact h.elim (.inr ∘ .inr ∘ .inl) (.inr ∘ .inr ∘ .inr)
  · refine .inr ⟨overflow, ?_, ?_⟩
    · simp only [add_eq, hargs, Except.bind]
    · refine h.elim (.inr ∘ .inl) fun h => .inr (.inr (.inr ?_))
      simp only [List.length_append] at h ⊢
      omega

/-! ### Nodes -/

/-- The table keeps the nodes: every range lies in the pool, every node is found under its number
with its lists, and nothing else is in the pool. -/
structure Keeps (table : NodeTable) (nodes : Array Expr) : Prop where
  size : table.nodes.size = nodes.size
  inside : ∀ node ∈ table.nodes,
    node.args.stop ≤ table.pool.size ∧ node.items.stop ≤ table.pool.size
  form : ∀ (n : Nat) (e : Expr), nodes[n]? = some e →
    table.form? n = some (e.form.map Expr.number)
  pool : table.pool.toList = listedIn nodes

variable {nodes : Array Expr}

/-- A node is found where it is kept as long as its lists are. -/
theorem form?_eq_some {node : KeptForm} {n : Nat} (hnode : table.nodes[n]? = some node)
    (hform : node.form = form.withLists [] []) (hargs : table.list? node.args = some form.args)
    (hitems : table.list? node.items = some form.items) : table.form? n = some form := by
  rw [form?, hnode]
  show (do return node.form.withLists (← table.list? node.args) (← table.list? node.items)) = _
  rw [hargs, hitems, hform]
  exact congrArg some form.withLists_self

/-- A node stays where it is when more nodes and lists are kept. -/
theorem form?_mono {n : Nat} {node : KeptForm} (h : table.form? n = some form)
    (hnodes : table'.nodes = table.nodes.push node)
    (hp : table'.pool.toList = table.pool.toList ++ more) : table'.form? n = some form := by
  obtain ⟨kept, hkept, h⟩ := Option.bind_eq_some_iff.mp h
  obtain ⟨args, hargs, h⟩ := Option.bind_eq_some_iff.mp h
  obtain ⟨items, hitems, h⟩ := Option.bind_eq_some_iff.mp h
  have hlt := (Array.getElem?_eq_some_iff.mp hkept).1
  have hkept' : table'.nodes[n]? = some kept := by
    rw [hnodes, Array.getElem?_push_lt hlt, ← hkept, Array.getElem?_eq_getElem hlt]
  rw [form?, hkept']
  show (do return kept.form.withLists (← table'.list? kept.args) (← table'.list? kept.items)) = _
  rw [list?_mono hargs hp, list?_mono hitems hp]
  exact h

theorem Keeps.push (h : table.Keeps nodes) {e : Expr} {node : KeptForm}
    (hnodes : table'.nodes = table.nodes.push node)
    (hp : table'.pool.toList = table.pool.toList ++ e.listed)
    (hform : node.form = (e.form.map Expr.number).withLists [] [])
    (hargs : table'.list? node.args = some (e.form.map Expr.number).args)
    (hitems : table'.list? node.items = some (e.form.map Expr.number).items) :
    table'.Keeps (nodes.push e) where
  size := by rw [hnodes, Array.size_push, Array.size_push, h.size]
  inside kept hkept := by
    have hle : table.pool.size ≤ table'.pool.size := by
      rw [← Array.length_toList, ← Array.length_toList, hp, List.length_append]
      exact Nat.le_add_right ..
    rw [hnodes] at hkept
    rcases Array.mem_push.mp hkept with hkept | rfl
    · exact (h.inside kept hkept).imp (Nat.le_trans · hle) (Nat.le_trans · hle)
    · exact ⟨stop_le hargs, stop_le hitems⟩
  form n e' he' := by
    rw [Array.getElem?_push] at he'
    split at he'
    · rename_i hn
      cases he'
      have hnode : table'.nodes[n]? = some node := by
        rw [hnodes, hn, ← h.size]
        exact Array.getElem?_push_size
      exact form?_eq_some hnode hform hargs hitems
    · exact form?_mono (h.form n e' he') hnodes hp
  pool := by
    rw [hp, h.pool, listedIn, listedIn, Array.toList_push, List.flatMap_append]
    simp

end NodeTable

theorem Overfull.push {nodes : Array Expr} (h : Overfull nodes) (e : Expr) :
    Overfull (nodes.push e) := by
  refine h.imp (fun h => ?_) (Or.imp (fun h => ?_) ?_)
  · rw [Array.size_push]
    omega
  · rw [listedIn, Array.toList_push, List.flatMap_append, List.length_append]
    exact Nat.lt_add_right _ h
  · rintro ⟨e', he', h⟩
    exact ⟨e', Array.mem_push_of_mem e he', h⟩

/-- The nodes are in the table, or they cannot be kept. -/
def ParseState.Kept (p : ParseState) : Prop :=
  match p.table with
  | .ok table => table.Keeps p.nodes
  | .error _ => Overfull p.nodes

/-- A new node goes into the table, or it cannot be kept. -/
theorem ParseState.Kept.build {p : ParseState} (h : p.Kept) (e : Expr) : (p.build e).Kept := by
  obtain ⟨position, catalog, nodes, _ | table⟩ := p
  · exact Overfull.push h e
  replace h : table.Keeps nodes := h
  have hlisted : (e.form.map Expr.number).args ++ (e.form.map Expr.number).items = e.listed := by
    rw [Form.args_map, Form.items_map, Expr.listed, List.map_append]
  show match table.add (e.form.map Expr.number) with
    | .ok table => table.Keeps (nodes.push e)
    | .error _ => Overfull (nodes.push e)
  obtain ⟨table', node, hadd, hnodes, hpool, hform, hargs, hitems⟩ | ⟨overflow, hadd, hover⟩ :=
    table.add_cases (e.form.map Expr.number)
  · rw [hadd]
    exact h.push hnodes (hlisted ▸ hpool) hform hargs hitems
  · rw [hadd]
    rw [hlisted, h.pool, h.size, Form.args_map, Form.items_map, List.length_map,
      List.length_map] at hover
    rcases hover with hsize | hargs | hitems | hpool
    · exact .inl (by rw [Array.size_push]; omega)
    · exact .inr (.inr ⟨e, Array.mem_push_self, .inl hargs⟩)
    · exact .inr (.inr ⟨e, Array.mem_push_self, .inr hitems⟩)
    · refine .inr (.inl ?_)
      rw [listedIn, Array.toList_push, List.flatMap_append, List.flatMap_singleton]
      exact hpool

theorem ParseState.kept_start (c : Catalog) : (start c).Kept where
  size := rfl
  inside _ h := by cases Array.mem_toList_iff.mpr h
  form _ _ h := by cases h
  pool := rfl

namespace Parser

theorem kept_invariant (s : Setting) : Invariant s ParseState.Kept where
  frame h hnodes htable := by
    unfold ParseState.Kept
    rw [hnodes, htable]
    exact h
  build h _ _ := h.build _

/-- **The table goes along with the nodes.** -/
theorem next_kept {s : Setting} {p q : ParseState} {root : Option Expr} (hp : p.Kept)
    (h : (next s).run p = (.ok root, q)) : q.Kept := (kept_invariant s).next hp h

end Parser

end TypedExpr
