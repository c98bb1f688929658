import TypedExpr.Proofs.Fragments.Basic
import TypedExpr.Proofs.Parse.Built
/-!
# Building from fragments

Every builder takes the fragments of one node and leaves the node. Nothing in hand is lost, used
twice or moved, and a new node has a new number, so what is built has every number at most once, and
its words are those of the fragments, in their order.

* `Arena`: nodes by number, each put together from nodes before it.
* `Turns`: what the parser has in hand becomes something else, while words are read.
* `Builds`: the same without reading; `Parser.push_builds`, `Parser.buildBinary_builds`, …: one
  statement for each builder.
-/

namespace TypedExpr

/-- The numbers of nodes are their places, and every node is put together from nodes before it. -/
def Arena (nodes : Array Expr) : Prop :=
  ∀ (i : Nat) (e : Expr), nodes[i]? = some e →
    e.number = i ∧ ∀ part ∈ e.form.parts, part.number < i ∧ nodes[part.number]? = some part

/-- The parts among the fragments are nodes. -/
def Fragments.In (ps : Fragments) (nodes : Array Expr) : Prop :=
  ∀ e, .part e ∈ ps → nodes[e.number]? = some e

theorem Arena.empty : Arena #[] := fun _ _ h => by cases h

theorem getElem?_push_of_eq_some {nodes : Array Expr} {i : Nat} {e : Expr} (h : nodes[i]? = some e)
    (a : Expr) : (nodes.push a)[i]? = some e := by
  have hi := (Array.getElem?_eq_some_iff.1 h).1
  rw [Array.getElem?_push, if_neg (by omega), h]

/-- A new node gets the next number. -/
theorem Arena.push {nodes : Array Expr} (h : Arena nodes) {span : Span} {t : Ty} {form : Form Expr}
    (hp : Fragments.In form.fragments nodes) :
    Arena (nodes.push (.node nodes.size span t form)) := by
  intro i e he
  rw [Array.getElem?_push] at he
  split at he
  · rename_i hi
    obtain rfl := Option.some.inj he
    refine ⟨hi.symm, fun part hpart => ?_⟩
    have hnode := hp part (Form.mem_parts.1 hpart)
    exact ⟨hi ▸ (Array.getElem?_eq_some_iff.1 hnode).1, getElem?_push_of_eq_some hnode _⟩
  · obtain ⟨hn, hparts⟩ := h i e he
    refine ⟨hn, fun part hpart => ?_⟩
    obtain ⟨hlt, hnode⟩ := hparts part hpart
    exact ⟨hlt, getElem?_push_of_eq_some hnode _⟩

/-- How many nodes of that number have been built between two states. -/
def ParseState.fresh (p q : ParseState) (n : Nat) : Nat :=
  if p.nodes.size ≤ n ∧ n < q.nodes.size then 1 else 0

/-- With the fragments `ps` in hand the parser reads the words `ws` and then has `ps'` in hand. -/
structure Turns (s : Setting) (p q : ParseState) (ps ps' : Fragments) (ws : List Word) : Prop where
  keeps {i : Nat} {e : Expr} (h : p.nodes[i]? = some e) : q.nodes[i]? = some e
  arena (h : Arena p.nodes) (hp : ps.In p.nodes) : Arena q.nodes ∧ ps'.In q.nodes
  count (n : Nat) : ps'.count n ≤ ps.count n + p.fresh q n
  words (h : s.options.fold = false) : ps'.words = ps.words ++ ws

/-- With the fragments `ps` in hand the parser builds nodes and then has `ps'` in hand. -/
structure Builds (s : Setting) (p q : ParseState) (ps ps' : Fragments) : Prop where
  position : q.position = p.position
  turns : Turns s p q ps ps' []

namespace Turns

variable {s : Setting} {p q r : ParseState} {ps ps' ps'' : Fragments} {ws ws' : List Word}

theorem size_le (h : Turns s p q ps ps' ws) : p.nodes.size ≤ q.nodes.size := by
  by_contra hlt
  have hq := h.keeps (Array.getElem?_eq_getElem (Nat.lt_of_not_le hlt))
  simp at hq

/-- What is read comes into hand. -/
theorem read (h : q.nodes = p.nodes) (ps : Fragments) (ws : List Word) :
    Turns s p q ps (ps ++ ws.map .word) ws := by
  refine ⟨fun he => by rw [h, he], fun ha hp => ⟨h ▸ ha, fun e he => ?_⟩, fun n => ?_, fun _ => ?_⟩
  · rw [h]
    refine hp e ((List.mem_append.1 he).resolve_right fun he => ?_)
    obtain ⟨w, -, hw⟩ := List.mem_map.1 he
    cases hw
  · have hw : Fragments.count n (ws.map .word) = 0 := by
      induction ws with
      | nil => rfl
      | cons w ws ih => exact ih
    rw [Fragments.count_append, hw]
    exact Nat.le_add_right _ _
  · have hw : Fragments.words (ws.map .word) = ws := by
      induction ws with
      | nil => rfl
      | cons w ws ih => exact congrArg _ ih
    rw [Fragments.words_append, hw]

theorem still (h : q.nodes = p.nodes) (ps : Fragments) : Turns s p q ps ps [] := by
  simpa using read (s := s) h ps []

theorem trans (h : Turns s p q ps ps' ws) (h' : Turns s q r ps' ps'' ws') :
    Turns s p r ps ps'' (ws ++ ws') := by
  refine ⟨fun he => h'.keeps (h.keeps he), fun ha hp => ?_, fun n => ?_, fun hf => ?_⟩
  · obtain ⟨ha, hp⟩ := h.arena ha hp
    exact h'.arena ha hp
  · have hpq := h.size_le
    have hqr := h'.size_le
    have hps := h.count n
    have hps' := h'.count n
    unfold ParseState.fresh at hps hps' ⊢
    split_ifs at hps hps' ⊢ <;> omega
  · rw [h'.words hf, h.words hf, List.append_assoc]

/-- What else is in hand before stays as it is. -/
theorem after (rs : Fragments) (h : Turns s p q ps ps' ws) :
    Turns s p q (rs ++ ps) (rs ++ ps') ws := by
  refine ⟨h.keeps, fun ha hp => ?_, fun n => ?_, fun hf => ?_⟩
  · obtain ⟨hq, hin⟩ := h.arena ha fun e he => hp e (List.mem_append_right _ he)
    refine ⟨hq, fun e he => ?_⟩
    rcases List.mem_append.1 he with he | he
    · exact h.keeps (hp e (List.mem_append_left _ he))
    · exact hin e he
  · have := h.count n
    simp only [Fragments.count_append]
    omega
  · rw [Fragments.words_append, Fragments.words_append, h.words hf, List.append_assoc]

/-- What else is in hand behind stays as it is, while nothing is read. -/
theorem before (rs : Fragments) (h : Turns s p q ps ps' []) :
    Turns s p q (ps ++ rs) (ps' ++ rs) [] := by
  refine ⟨h.keeps, fun ha hp => ?_, fun n => ?_, fun hf => ?_⟩
  · obtain ⟨hq, hin⟩ := h.arena ha fun e he => hp e (List.mem_append_left _ he)
    refine ⟨hq, fun e he => ?_⟩
    rcases List.mem_append.1 he with he | he
    · exact hin e he
    · exact h.keeps (hp e (List.mem_append_right _ he))
  · have := h.count n
    simp only [Fragments.count_append]
    omega
  · simp [h.words hf]

end Turns

namespace Builds

variable {s : Setting} {p q r : ParseState} {ps ps' ps'' : Fragments}

theorem refl (s : Setting) (p : ParseState) (ps : Fragments) : Builds s p p ps ps :=
  ⟨rfl, .still rfl ps⟩

theorem trans (h : Builds s p q ps ps') (h' : Builds s q r ps' ps'') : Builds s p r ps ps'' :=
  ⟨h'.position.trans h.position, h.turns.trans h'.turns⟩

theorem after (rs : Fragments) (h : Builds s p q ps ps') : Builds s p q (rs ++ ps) (rs ++ ps') :=
  ⟨h.position, h.turns.after rs⟩

theorem before (rs : Fragments) (h : Builds s p q ps ps') : Builds s p q (ps ++ rs) (ps' ++ rs) :=
  ⟨h.position, h.turns.before rs⟩

theorem between (rs ts : Fragments) (h : Builds s p q ps ps') :
    Builds s p q (rs ++ ps ++ ts) (rs ++ ps' ++ ts) := (h.after rs).before ts

end Builds

namespace Parser

variable {s : Setting} {p q : ParseState}

/-! ### Steps that build nothing -/

theorem noteTypes_builds {ts : List Ty} {u : Unit} (h : (noteTypes ts).run p = (.ok u, q))
    (ps : Fragments) : Builds s p q ps ps := by
  cases h
  exact ⟨rfl, .still (by rfl) ps⟩

theorem requireValue_ok {e : Expr} {line : Nat} {u : Unit} :
    (requireValue e line).run p = (.ok u, q) ↔ p = q ∧ e.type ≠ .void := by
  unfold requireValue
  constructor
  · intro h
    split at h
    · cases h
    · rename_i hv
      cases h
      exact ⟨rfl, hv⟩
  · rintro ⟨rfl, hv⟩
    rw [if_neg hv]
    rfl

/-! ### Nodes -/

theorem push_builds {form : Form Expr} {span : Span} {t : Ty} {e : Expr}
    (h : (push form span t).run p = (.ok e, q)) : Builds s p q form.fragments [.part e] := by
  cases h
  refine ⟨rfl, fun he => getElem?_push_of_eq_some he _,
    fun ha hp => ⟨ha.push hp, fun e he => ?_⟩, fun n => ?_, fun _ => ?_⟩
  · cases List.mem_singleton.1 he
    exact Array.getElem?_push_size
  · have hnew : p.fresh (p.build (.node p.nodes.size span t form)) n =
        if p.nodes.size = n then 1 else 0 := by
      unfold ParseState.fresh
      rw [ParseState.build_nodes, Array.size_push]
      congr 1
      exact propext (by omega)
    rw [hnew, Fragments.count_part, Expr.numbers_node, List.count_cons, Fragments.count,
      Form.flatMap_numbers]
    simp
  · rw [Fragments.words_part, Expr.words_node, List.append_nil]

/-- The literal of an operation stands for it, and has a number of its own. -/
theorem fold_builds {e a : Expr} (h : (fold s e).run p = (.ok a, q)) :
    Builds s p q [.part e] [.part a] := by
  rcases fold_cases h with ⟨rfl, rfl⟩ | ⟨hfold, form, c, hf, rfl, rfl, -⟩
  · exact .refl s _ _
  · have hleaf : ∀ part, .part part ∉ form.fragments := by
      obtain ⟨v, -, hv⟩ := Option.bind_eq_some_iff.1 hf
      split at hv
      · cases v <;> cases hv <;> simp [Form.fragments]
      · cases hv
    have hpush : (push form e.span e.type).run p =
        (.ok (.node p.nodes.size e.span e.type form), p.build (.node _ _ _ form)) := rfl
    have hb : Builds s p _ _ _ := push_builds hpush
    refine ⟨rfl, hb.turns.keeps, fun ha _ => hb.turns.arena ha fun part hpart => ?_, fun n => ?_,
      fun hoff => ?_⟩
    · exact absurd hpart (hleaf part)
    · have hzero : Fragments.count n form.fragments = 0 := by
        rw [Fragments.count, List.count_eq_zero, List.mem_flatMap]
        rintro ⟨fragment, hfragment, hn⟩
        cases fragment with
        | part part => exact hleaf part hfragment
        | word _ => cases hn
      have hcount := hb.turns.count n
      rw [hzero] at hcount
      exact Nat.le_trans hcount (Nat.add_le_add_right (Nat.zero_le _) _)
    · rw [hfold] at hoff
      cases hoff

theorem pushFold_builds {form : Form Expr} {span : Span} {t : Ty} {a : Expr}
    (h : (do fold s (← push form span t) : Parser Expr).run p = (.ok a, q)) :
    Builds s p q form.fragments [.part a] := by
  obtain ⟨e, p', he, ha⟩ := run_bind_ok.1 h
  exact (push_builds he).trans (fold_builds ha)

theorem convert_builds {e a : Expr} {target : Ty} {context : String} {line : Nat}
    (h : (convert s e target context line).run p = (.ok a, q)) :
    Builds s p q [.part e] [.part a] := by
  unfold convert at h
  split at h
  · cases h
    exact .refl s p _
  · split at h
    · cases h
    · split at h
      · exact pushFold_builds h
      · cases h
        exact .refl s p _

/-- Every argument is converted, if there are as many parameters. -/
theorem convertAll_builds {context : String} {line : Nat} {es as : List Expr} {targets : List Ty}
    (h : (convertAll s context line es targets).run p = (.ok as, q))
    (hl : es.length = targets.length) : Builds s p q (es.map .part) (as.map .part) := by
  induction es generalizing p targets as with
  | nil =>
    cases h
    exact .refl s _ _
  | cons e es ih =>
    cases targets with
    | nil => cases hl
    | cons target targets =>
      obtain ⟨a, p₁, ha, h⟩ := run_bind_ok.1 h
      obtain ⟨as, p₂, has, h⟩ := run_bind_ok.1 h
      cases h
      have hrest := ih has (Nat.succ.inj hl)
      exact ((convert_builds ha).before (es.map .part)).trans (hrest.after [.part a])

theorem convertEach_builds {context : String} {line : Nat} {target : Ty} {es as : List Expr}
    (h : (es.mapM fun e => convert s e target context line).run p = (.ok as, q)) :
    Builds s p q (es.map .part) (as.map .part) := by
  induction es generalizing p as with
  | nil =>
    cases h
    exact .refl s _ _
  | cons e es ih =>
    rw [List.mapM_cons] at h
    obtain ⟨a, p₁, ha, h⟩ := run_bind_ok.1 h
    obtain ⟨as, p₂, has, h⟩ := run_bind_ok.1 h
    cases h
    exact ((convert_builds ha).before (es.map .part)).trans ((ih has).after [.part a])

/-! ### Operations -/

theorem buildIndex_builds {container bracket item : Item} {i : Expr}
    (h : (buildIndex s container i bracket).run p = (.ok item, q)) :
    Builds s p q (container.fragments ++ [.part i]) item.fragments := by
  unfold buildIndex at h
  split at h
  · cases h
  · rename_i e he
    have hc : container.fragments = [.part e] := by
      obtain ⟨kind, span, line⟩ := container
      cases kind <;> cases he
      rfl
    obtain ⟨_, p₁, h₁, h⟩ := run_bind_ok.1 h
    obtain ⟨rfl, -⟩ := requireValue_ok.1 h₁
    obtain ⟨_, p₂, h₂, h⟩ := run_bind_ok.1 h
    split at h
    · cases h
    · rename_i indexer _
      obtain ⟨a, p₃, ha, h⟩ := run_bind_ok.1 h
      obtain ⟨e', p₄, he', h⟩ := run_bind_ok.1 h
      cases h
      rw [hc]
      exact (noteTypes_builds h₂ _).trans
        (((convert_builds ha).after [.part e]).trans (push_builds he'))

theorem buildStep_builds {op : StepOp} {before : Bool} {target e : Expr} {operator : Item}
    {span : Span} (h : (buildStep s op before target operator span).run p = (.ok e, q)) :
    Builds s p q (Form.step op before target).fragments [.part e] := by
  unfold buildStep at h
  split at h
  · exact push_builds h
  · cases h

theorem buildUnary_builds {op : UnaryOp} {operand e : Expr} {operator : Item} {span : Span}
    (h : (buildUnary s op operand operator span).run p = (.ok e, q)) :
    Builds s p q [.word (.operator op.operator), .part operand] [.part e] := by
  obtain ⟨_, p₁, h₁, h⟩ := run_bind_ok.1 h
  obtain ⟨typing, p₂, ht, h⟩ := run_bind_ok.1 h
  obtain ⟨-, rfl⟩ := typed_ok.1 ht
  obtain ⟨a, p₃, ha, h⟩ := run_bind_ok.1 h
  exact (noteTypes_builds h₁ _).trans
    (((convert_builds ha).after [.word (.operator op.operator)]).trans (pushFold_builds h))

theorem buildCast_builds {operand e : Expr} {target : Ty} {operator : Item} {span : Span}
    (h : (buildCast s operand target operator span).run p = (.ok e, q)) :
    Builds s p q [.part operand] [.part e] := by
  unfold buildCast at h
  split at h
  · exact pushFold_builds h
  · cases h

theorem buildBinary_builds {op : BinaryOp} {left right e : Expr} {operator : Item} {span : Span}
    (h : (buildBinary s op left right operator span).run p = (.ok e, q)) :
    Builds s p q [.part left, .word (.operator (.binary op)), .part right] [.part e] := by
  obtain ⟨_, p₁, h₁, h⟩ := run_bind_ok.1 h
  obtain ⟨typing, p₂, ht, h⟩ := run_bind_ok.1 h
  obtain ⟨-, rfl⟩ := typed_ok.1 ht
  obtain ⟨l, p₃, hl, h⟩ := run_bind_ok.1 h
  obtain ⟨r, p₄, hr, h⟩ := run_bind_ok.1 h
  have hleft := (convert_builds hl).before [.word (.operator (.binary op)), .part right]
  have hright := (convert_builds hr).after [.part l, .word (.operator (.binary op))]
  exact (noteTypes_builds h₁ _).trans (hleft.trans (hright.trans (pushFold_builds h)))

theorem buildTernary_builds {condition yes no e : Expr} {operator : Item} {span : Span}
    (h : (buildTernary s condition yes no operator span).run p = (.ok e, q)) :
    Builds s p q [.part condition, .word (.operator .question), .part yes, .part no] [.part e] := by
  obtain ⟨c, p₁, hc, h⟩ := run_bind_ok.1 h
  have hc := (convert_builds hc).before [.word (.operator .question), .part yes, .part no]
  have branches (t : Ty) (h : (do
      let yes ← convert s yes t "branch" operator.line
      let no ← convert s no t "branch" operator.line
      push (.ternary c yes no) span t : Parser Expr).run p₁ = (.ok e, q)) :
      Builds s p q [.part condition, .word (.operator .question), .part yes, .part no]
        [.part e] := by
    obtain ⟨y, p₂, hy, h⟩ := run_bind_ok.1 h
    obtain ⟨n, p₃, hn, h⟩ := run_bind_ok.1 h
    have hy := ((convert_builds hy).before [.part no]).after [.part c, .word (.operator .question)]
    have hn := (convert_builds hn).after [.part c, .word (.operator .question), .part y]
    exact hc.trans (hy.trans (hn.trans (push_builds h)))
  split at h
  · exact branches _ h
  · split at h
    · exact branches _ h
    · cases h

theorem buildUpdate_builds {op : AssignOp} {target value e : Expr} {operator : Item} {span : Span}
    (h : (buildUpdate s op target value operator span).run p = (.ok e, q)) :
    Builds s p q [.part target, .word (.operator (.assign op)), .part value] [.part e] := by
  cases op with
  | plain =>
    obtain ⟨v, p₁, hv, h⟩ := run_bind_ok.1 h
    have hvalue := (convert_builds hv).after [.part target, .word (.operator (.assign .plain))]
    exact hvalue.trans (push_builds h)
  | compound op =>
    obtain ⟨_, p₁, h₁, h⟩ := run_bind_ok.1 h
    obtain ⟨typing, p₂, ht, h⟩ := run_bind_ok.1 h
    obtain ⟨-, rfl⟩ := typed_ok.1 ht
    obtain ⟨v, p₃, hv, h⟩ := run_bind_ok.1 h
    have hvalue := (convert_builds hv).after
      [.part target, .word (.operator (.assign (.compound op)))]
    exact (noteTypes_builds h₁ _).trans (hvalue.trans (push_builds h))

end Parser

end TypedExpr
