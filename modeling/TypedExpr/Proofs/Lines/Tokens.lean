import TypedExpr.Proofs.Scanning.Tiling
/-!
# The order of the tokens of a text

The tokens of a text stand one after the other, also when the names of types have been recognised,
and the end of input starts where the last of them stops.

* `TokenList.Ordered`: the order that a parser finds, wherever it looks.
* `TokenList.ordered_of_ofText`: **no token of a text starts before the one in front of it.**
-/

namespace TypedExpr

namespace TokenList

/-- No token starts before the one in front of it. -/
def Ordered (ts : TokenList) : Prop :=
  ∀ i, (ts.get i).span.start ≤ (ts.get (i + 1)).span.start

theorem ordered_of_pairwise {ts : TokenList}
    (h : (ts.init.toList ++ [ts.last]).Pairwise fun t u => t.span.start ≤ u.span.start) :
    ts.Ordered := by
  obtain ⟨hinit, -, hlast⟩ := List.pairwise_append.1 h
  intro i
  unfold get
  rcases Nat.lt_trichotomy (i + 1) ts.init.size with hi | hi | hi
  · have hget := List.pairwise_iff_getElem.1 hinit i (i + 1) (by simp; omega) (by simpa) (by omega)
    rw [Array.getElem?_eq_getElem (by omega), Array.getElem?_eq_getElem hi]
    exact hget
  · rw [Array.getElem?_eq_getElem (by omega), Array.getElem?_eq_none (by omega)]
    exact hlast _ (Array.mem_toList_iff.2 (Array.getElem_mem _)) _ (.head _)
  · have hend : ts.init[i]? = ts.init[i + 1]? := by
      rw [Array.getElem?_eq_none (by omega), Array.getElem?_eq_none (by omega)]
    exact Nat.le_of_eq (by rw [hend])

theorem ordered_ofTokens {tokens : List Token} (h : Token.Laid tokens) :
    (ofTokens tokens.toArray).Ordered := by
  have horder : tokens.Pairwise fun t u => t.span.start ≤ u.span.start :=
    h.order.imp_of_mem fun ht _ hle => Nat.le_trans (Nat.le_of_lt (h.nonempty _ ht)) hle
  refine ordered_of_pairwise ?_
  rcases List.eq_nil_or_concat tokens with rfl | ⟨us, t, rfl⟩
  · simp [ofTokens]
  · rw [List.concat_eq_append] at horder h ⊢
    have hback : (us ++ [t]).toArray.back? = some t := by simp
    unfold ofTokens
    split
    · rename_i last hlast
      obtain rfl := Option.some.inj (hback.symm.trans hlast)
      split
      · simpa using horder
      · have heof : (eofAfter (us ++ [t]).toArray).span.start = t.span.stop := by
          simp [eofAfter]
        have hstop : t.span.start ≤ t.span.stop := Nat.le_of_lt (h.nonempty t (by simp))
        refine List.pairwise_append.2 ⟨horder, List.pairwise_singleton _ _, fun u hu v hv => ?_⟩
        obtain rfl := List.mem_singleton.1 hv
        rw [heof]
        refine Nat.le_trans ?_ hstop
        rcases List.mem_append.1 hu with hu | hu
        · exact (List.pairwise_append.1 horder).2.2 u hu t (.head _)
        · exact Nat.le_of_eq (congrArg (·.span.start) (List.mem_singleton.1 hu))
    · rename_i hnone
      cases hback.symm.trans hnone

/-- **No token of a text starts before the one in front of it.** -/
theorem ordered_of_ofText {reg : Registry} {text : String} {c c' : Catalog} {ts : TokenList}
    (h : ofText reg text c = .ok (ts, c')) : ts.Ordered := by
  unfold ofText at h
  cases hcut : Token.cut text with
  | error e =>
    rw [hcut] at h
    cases h
  | ok tokens =>
    rw [hcut] at h
    cases h
    exact ordered_ofTokens (Token.laid_recognise hcut reg _ c)

end TokenList

end TypedExpr
