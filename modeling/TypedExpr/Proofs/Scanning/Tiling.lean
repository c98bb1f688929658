import TypedExpr.Proofs.Scanning.Recognition
/-!
# Where the tokens of a text stand

The tokens of a text take up all of it but blanks and comments, each byte once, with one exception.
When a list of type arguments ends with the first bracket of a `>>` and nothing after it belongs to
the type or the call, the second bracket is a token of its own and the first one is in no token. So
it is with a `>>` that was cut by a reading that was given up.

* `Text.Significant`, `Text.IsBoundary`: the bytes of a text that matter, and the offsets between
  its characters.
* `Token.Laid`: tokens that each take up something, one after the other.
* `Token.laid_of_cut`, `Token.covers_iff_of_cut`: the tokens before type names are recognised.
* `Token.Joins.laid`, `Token.laid_recognise`: joining keeps the order.
* `TokenList.tiles_of_ofText`: **every byte that matters is in one token, unless it was cut off.**
-/

namespace TypedExpr

/-! ### Bytes -/

namespace Text

/-- Marked characters, each as often as it has bytes. -/
def bytes (ms : List (Char × Region)) : List (Char × Region) :=
  ms.flatMap fun m => List.replicate m.1.utf8Size m

/-- The byte at an offset belongs to a character that matters, where the characters begin at another
offset. -/
def SignificantFrom (offset : Nat) (cs : List Char) (b : Nat) : Prop :=
  ∃ k m, b = offset + k ∧ (bytes (marks cs))[k]? = some m ∧ isSignificant m = true

/-- The byte belongs to a character that is neither blank nor in a comment. -/
def Significant (text : String) (b : Nat) : Prop := SignificantFrom 0 text.toList b

/-- The offset lies between two characters, or at an end, where the characters begin at another
offset. -/
def IsBoundaryFrom (offset : Nat) (cs : List Char) (p : Nat) : Prop :=
  ∃ w, w <+: cs ∧ p = offset + byteLength w

/-- The offset lies between two characters of the text, or at an end of it. -/
def IsBoundary (text : String) (p : Nat) : Prop := IsBoundaryFrom 0 text.toList p

variable {offset : Nat} {w rest : List Char} {r : Region}

theorem length_bytes (w : List Char) (r : Region) :
    (bytes (w.map (·, r))).length = byteLength w := by
  induction w with
  | nil => rfl
  | cons c w ih => simpa [bytes] using ih

theorem significantFrom_append (h : Piece.Stretch r w rest) (b : Nat) :
    SignificantFrom offset (w ++ rest) b ↔
      (∃ k m, b = offset + k ∧ (bytes (w.map (·, r)))[k]? = some m ∧ isSignificant m = true) ∨
      SignificantFrom (offset + byteLength w) rest b := by
  unfold SignificantFrom
  have hmarks : marks (w ++ rest) = w.map (·, r) ++ marks rest := h
  have hbytes : bytes (marks (w ++ rest)) = bytes (w.map (·, r)) ++ bytes (marks rest) := by
    rw [hmarks, bytes, bytes, bytes, List.flatMap_append]
  have hlength := length_bytes w r
  rw [hbytes]
  constructor
  · rintro ⟨k, m, hk, hm, hsig⟩
    rcases Nat.lt_or_ge k (byteLength w) with hlt | hge
    · rw [List.getElem?_append_left (by omega)] at hm
      exact .inl ⟨k, m, hk, hm, hsig⟩
    · rw [List.getElem?_append_right (by omega), hlength] at hm
      exact .inr ⟨k - byteLength w, m, by omega, hm, hsig⟩
  · rintro (⟨k, m, hk, hm, hsig⟩ | ⟨k, m, hk, hm, hsig⟩)
    · obtain ⟨hlt, -⟩ := List.getElem?_eq_some_iff.1 hm
      exact ⟨k, m, hk, by rw [List.getElem?_append_left hlt, hm], hsig⟩
    · refine ⟨byteLength w + k, m, by omega, ?_, hsig⟩
      rw [List.getElem?_append_right (by omega), hlength, Nat.add_sub_cancel_left, hm]

/-- The byte of a character that lies in one region. -/
theorem mem_of_getElem?_bytes {k : Nat} {m : Char × Region}
    (h : (bytes (w.map (·, r)))[k]? = some m) : ∃ c ∈ w, m = (c, r) := by
  have hmem := List.mem_of_getElem? h
  simp only [bytes, List.mem_flatMap, List.mem_map, List.mem_replicate] at hmem
  obtain ⟨_, ⟨c, hc, rfl⟩, -, rfl⟩ := hmem
  exact ⟨c, hc, rfl⟩

theorem IsBoundaryFrom.append {p : Nat} (h : IsBoundaryFrom (offset + byteLength w) rest p) :
    IsBoundaryFrom offset (w ++ rest) p := by
  obtain ⟨v, hv, rfl⟩ := h
  refine ⟨w ++ v, (List.prefix_append_right_inj w).2 hv, ?_⟩
  rw [byteLength_append, Nat.add_assoc]

end Text

/-! ### Tokens one after the other -/

namespace Token

/-- The token takes up the byte. -/
def Covers (t : Token) (b : Nat) : Prop := t.span.start ≤ b ∧ b < t.span.stop

instance (t : Token) (b : Nat) : Decidable (t.Covers b) := inferInstanceAs (Decidable (_ ∧ _))

/-- Each token takes up something and ends before the next ones start. -/
structure Laid (ts : List Token) : Prop where
  nonempty : ∀ t ∈ ts, t.span.start < t.span.stop
  order : ts.Pairwise fun t u => t.span.stop ≤ u.span.start

namespace Laid

variable {t u : Token} {ts us : List Token} {b : Nat}

theorem nil : Laid [] := ⟨nofun, .nil⟩

theorem cons (ht : t.span.start < t.span.stop) (h : ∀ u ∈ ts, t.span.stop ≤ u.span.start)
    (hts : Laid ts) : Laid (t :: ts) :=
  ⟨List.forall_mem_cons.2 ⟨ht, hts.nonempty⟩, .cons h hts.order⟩

theorem tail (h : Laid (t :: ts)) : Laid ts :=
  ⟨fun u hu => h.nonempty u (.tail _ hu), h.order.of_cons⟩

theorem stop_le (h : Laid (t :: ts)) (hu : u ∈ ts) : t.span.stop ≤ u.span.start :=
  List.rel_of_pairwise_cons h.order hu

theorem sublist (h : Laid ts) (hs : us.Sublist ts) : Laid us :=
  ⟨fun u hu => h.nonempty u (hs.subset hu), h.order.sublist hs⟩

/-- Of two tokens one is before the other. -/
theorem apart (h : Laid ts) (ht : t ∈ ts) (hu : u ∈ ts) :
    t = u ∨ t.span.stop ≤ u.span.start ∨ u.span.stop ≤ t.span.start := by
  induction ts with
  | nil => cases ht
  | cons v ts ih =>
    rcases List.mem_cons.1 ht with htv | ht <;> rcases List.mem_cons.1 hu with huv | hu
    · exact .inl (htv.trans huv.symm)
    · exact .inr (.inl (htv ▸ h.stop_le hu))
    · exact .inr (.inr (huv ▸ h.stop_le ht))
    · exact ih h.tail ht hu

/-- No byte is taken up twice. -/
theorem countP_covers (h : Laid ts) (ht : t ∈ ts) (hb : t.Covers b) :
    ts.countP (·.Covers b) = 1 := by
  induction ts with
  | nil => cases ht
  | cons v ts ih =>
    obtain ⟨hstart, hstop⟩ := hb
    rcases List.mem_cons.1 ht with rfl | ht
    · have htail : ts.countP (·.Covers b) = 0 := by
        refine List.countP_eq_zero.2 fun u hu hcovers => ?_
        have hle := h.stop_le hu
        have hub : u.span.start ≤ b := (of_decide_eq_true hcovers).1
        omega
      rw [List.countP_cons_of_pos (by simpa using ⟨hstart, hstop⟩), htail]
    · have hle := h.stop_le ht
      have hv : ¬v.Covers b := fun hcovers => by
        have hvb := hcovers.2
        omega
      rw [List.countP_cons_of_neg (by simpa using hv)]
      exact ih h.tail ht

end Laid

/-! ### Before type names are recognised -/

/-- The place of a token among some characters that begin at an offset. -/
structure Placed (offset : Nat) (cs : List Char) (t : Token) : Prop where
  start : Text.IsBoundaryFrom offset cs t.span.start
  stop : Text.IsBoundaryFrom offset cs t.span.stop
  pair : t.kind = .operator (.binary .shr) →
    t.span.stop = t.span.start + 2 ∧ Text.IsBoundaryFrom offset cs (t.span.start + 1)

variable {offset : Nat} {cs : List Char} {ts us : List Token} {t u : Token}

theorem Placed.append {w rest : List Char} (h : Placed (offset + byteLength w) rest t) :
    Placed offset (w ++ rest) t :=
  ⟨h.start.append, h.stop.append, fun hk => ⟨(h.pair hk).1, (h.pair hk).2.append⟩⟩

theorem byteLength_pos_of_ne_nil {w : List Char} (h : w ≠ []) : 0 < byteLength w := by
  cases w with
  | nil => exact absurd rfl h
  | cons c w => exact byteLength_pos c w

theorem laid_of_cut (h : Cut offset cs ts) :
    Laid ts ∧ (∀ t ∈ ts, offset ≤ t.span.start) ∧ ∀ t ∈ ts, Placed offset cs t := by
  induction h with
  | nil => exact ⟨.nil, nofun, nofun⟩
  | gap hw hlies hgap hrest ih =>
    obtain ⟨hlaid, hlow, hplaced⟩ := ih
    refine ⟨hlaid, fun t ht => ?_, fun t ht => (hplaced t ht).append⟩
    exact Nat.le_trans (Nat.le_add_right _ _) (hlow t ht)
  | @token offset line w rest ts r kind hw hlies hspells hrest ih =>
    obtain ⟨hlaid, hlow, hplaced⟩ := ih
    have hpos := byteLength_pos_of_ne_nil hw
    refine ⟨.cons (Nat.lt_add_of_pos_right hpos) hlow hlaid, ?_, ?_⟩
    · refine List.forall_mem_cons.2 ⟨Nat.le_refl _, fun t ht => ?_⟩
      exact Nat.le_trans (Nat.le_add_right _ _) (hlow t ht)
    · refine List.forall_mem_cons.2 ⟨⟨?_, ?_, fun hk => ?_⟩,
        fun t ht => (hplaced t ht).append⟩
      · exact ⟨[], List.nil_prefix, rfl⟩
      · exact ⟨w, List.prefix_append w rest, rfl⟩
      · obtain rfl := hspells.pair hk
        exact ⟨rfl, ['>'], ⟨'>' :: rest, rfl⟩, rfl⟩

theorem covers_iff_of_cut (h : Cut offset cs ts) (b : Nat) :
    Text.SignificantFrom offset cs b ↔ ∃ t ∈ ts, t.Covers b := by
  induction h with
  | nil => simp [Text.SignificantFrom, marks, marksFrom, Text.bytes]
  | gap hw hlies hgap hrest ih =>
    rw [Text.significantFrom_append hlies, ih, or_iff_right]
    rintro ⟨k, m, -, hm, hsig⟩
    obtain ⟨c, hc, rfl⟩ := Text.mem_of_getElem?_bytes hm
    rw [hgap c hc] at hsig
    cases hsig
  | @token offset line w rest ts r kind hw hlies hspells hrest ih =>
    rw [Text.significantFrom_append hlies, ih, List.exists_mem_cons_iff]
    refine or_congr_left ⟨?_, fun hb => ?_⟩
    · rintro ⟨k, m, rfl, hm, -⟩
      obtain ⟨hlt, -⟩ := List.getElem?_eq_some_iff.1 hm
      rw [Text.length_bytes] at hlt
      exact ⟨Nat.le_add_right _ _, Nat.add_lt_add_left hlt _⟩
    · obtain ⟨hstart, hstop⟩ := hb
      have hlt : b - offset < (Text.bytes (w.map (·, r))).length := by
        rw [Text.length_bytes]
        dsimp only at hstart hstop
        omega
      obtain ⟨c, hc, hm⟩ := Text.mem_of_getElem?_bytes (List.getElem?_eq_getElem hlt)
      refine ⟨b - offset, _, by dsimp only at hstart; omega, List.getElem?_eq_getElem hlt, ?_⟩
      rw [hm]
      exact hspells.significant c hc

/-! ### When type names are recognised -/

theorem Trims.stop (h : Trims t u) : u.span.stop = t.span.stop := by
  cases h <;> rfl

theorem Trims.start_le (h : Trims t u) : t.span.start ≤ u.span.start := by
  cases h with
  | same => exact Nat.le_refl _
  | second => exact Nat.le_succ _

theorem Placed.trims (h : Placed offset cs t) (htu : Trims t u) : Placed offset cs u := by
  cases htu with
  | same => exact h
  | second hk => exact ⟨(h.pair hk).2, h.stop, nofun⟩

/-- A `>>` has two bytes, so that one is left. -/
theorem Laid.trimmed (h : Laid ts) (hplaced : ∀ t ∈ ts, Placed offset cs t)
    (htrim : Trimmed ts us) : Laid us := by
  induction htrim with
  | nil => exact .nil
  | @cons t u ts us htu htrim ih =>
    obtain ⟨ht, hplaced⟩ := List.forall_mem_cons.1 hplaced
    refine .cons ?_ (fun v hv => ?_) (ih h.tail hplaced)
    · cases htu with
      | same => exact h.nonempty t (.head _)
      | second hk =>
        have htwo := (ht.pair hk).1
        simp only [second]
        omega
    · obtain ⟨w, hw, hwv⟩ := exists_trimmed htrim v hv
      rw [htu.stop]
      exact Nat.le_trans (h.stop_le hw) hwv.start_le

theorem Laid.stop_le_getLast (h : Laid ts) (hne : ts ≠ []) :
    ∀ u ∈ ts, u.span.stop ≤ (ts.getLast hne).span.stop := by
  induction ts with
  | nil => nofun
  | cons v ts ih =>
    cases ts with
    | nil => simp
    | cons w ws =>
      have hlast := ih h.tail (List.cons_ne_nil w ws)
      rw [List.getLast_cons (List.cons_ne_nil w ws)]
      refine List.forall_mem_cons.2 ⟨?_, hlast⟩
      have hw := h.nonempty w (.tail _ (.head _))
      have hle := h.stop_le (List.mem_cons_self (a := w))
      exact Nat.le_trans (Nat.le_of_lt (Nat.lt_of_le_of_lt hle hw)) (hlast w (.head _))

theorem join_span {mid : List Token} (kind : TokenKind) (h : Laid (t :: mid)) :
    (join kind t mid).span =
      ⟨t.span.start, ((t :: mid).getLast (List.cons_ne_nil _ _)).span.stop⟩ := by
  have hstop := h.stop_le_getLast (List.cons_ne_nil t mid) t (.head _)
  have hstart : t.span.start ≤ ((t :: mid).getLast (List.cons_ne_nil _ _)).span.start := by
    rcases List.mem_cons.1 (List.getLast_mem (List.cons_ne_nil t mid)) with heq | hmem
    · exact Nat.le_of_eq (by rw [heq])
    · exact Nat.le_trans (Nat.le_of_lt (h.nonempty t (.head _))) (h.stop_le hmem)
  simp only [join, Span.merge, Nat.min_eq_left hstart, Nat.max_eq_right hstop]

namespace Joins

variable {out : List Token} {o : Token}

/-- A joined token begins where one token does, and ends where one does. -/
theorem laid (h : Joins us out) (hlaid : Laid us) :
    Laid out ∧ ∀ o ∈ out, ∃ a ∈ us, ∃ z ∈ us, o.span = ⟨a.span.start, z.span.stop⟩ := by
  induction h with
  | nil => exact ⟨.nil, nofun⟩
  | @keep t us out h ih =>
    obtain ⟨hout, hends⟩ := ih hlaid.tail
    constructor
    · refine .cons (hlaid.nonempty t (.head _)) (fun o ho => ?_) hout
      obtain ⟨a, ha, z, -, hspan⟩ := hends o ho
      rw [hspan]
      exact hlaid.stop_le ha
    · refine List.forall_mem_cons.2 ⟨⟨t, .head _, t, .head _, rfl⟩, fun o ho => ?_⟩
      obtain ⟨a, ha, z, hz, hspan⟩ := hends o ho
      exact ⟨a, .tail _ ha, z, .tail _ hz, hspan⟩
  | @join t mid kind us out ht hkind h ih =>
    rw [← List.cons_append] at hlaid ⊢
    have hfirst : Laid (t :: mid) := hlaid.sublist (List.sublist_append_left _ _)
    have hrest : Laid us := hlaid.sublist (List.sublist_append_right _ _)
    obtain ⟨hout, hends⟩ := ih hrest
    have hlast := List.getLast_mem (List.cons_ne_nil t mid)
    have hspan := join_span kind hfirst
    constructor
    · refine .cons ?_ (fun o ho => ?_) hout
      · rw [hspan]
        have hle := hfirst.stop_le_getLast (List.cons_ne_nil t mid) t (.head _)
        exact Nat.lt_of_lt_of_le (hfirst.nonempty t (.head _)) hle
      · obtain ⟨a, ha, z, -, ho⟩ := hends o ho
        rw [hspan, ho]
        exact (List.pairwise_append.1 hlaid.order).2.2 _ hlast a ha
    · refine List.forall_mem_cons.2 ⟨?_, fun o ho => ?_⟩
      · exact ⟨t, .head _, _, List.mem_append_left _ hlast, hspan⟩
      · obtain ⟨a, ha, z, hz, hspan⟩ := hends o ho
        exact ⟨a, List.mem_append_right _ ha, z, List.mem_append_right _ hz, hspan⟩

/-- No token gets lost: it stays, or lies in a joined one, of which only the first is a name. -/
theorem exists_mem (h : Joins us out) (hlaid : Laid us) (hu : u ∈ us) :
    u ∈ out ∨ ∃ o ∈ out, o.span.start ≤ u.span.start ∧ u.span.stop ≤ o.span.stop ∧
      (u.kind.isJoined ∨ o.span.start < u.span.start) := by
  induction h with
  | nil => cases hu
  | @keep t us out h ih =>
    rcases List.mem_cons.1 hu with rfl | hu
    · exact .inl (.head _)
    · rcases ih hlaid.tail hu with hmem | ⟨o, ho, hinside⟩
      · exact .inl (.tail _ hmem)
      · exact .inr ⟨o, .tail _ ho, hinside⟩
  | @join t mid kind us out ht hkind h ih =>
    rw [← List.cons_append] at hlaid hu
    rcases List.mem_append.1 hu with hu | hu
    · have hfirst : Laid (t :: mid) := hlaid.sublist (List.sublist_append_left _ _)
      refine .inr ⟨_, .head _, ?_⟩
      rw [join_span kind hfirst]
      refine and_left_comm.1 ⟨hfirst.stop_le_getLast _ u hu, ?_⟩
      rcases List.mem_cons.1 hu with rfl | hu
      · exact ⟨Nat.le_refl _, .inl ht⟩
      · have hlt := Nat.lt_of_lt_of_le (hfirst.nonempty t (.head _)) (hfirst.stop_le hu)
        exact ⟨Nat.le_of_lt hlt, .inr hlt⟩
    · rcases ih (hlaid.sublist (List.sublist_append_right _ _)) hu with hmem | ⟨o, ho, hinside⟩
      · exact .inl (.tail _ hmem)
      · exact .inr ⟨o, .tail _ ho, hinside⟩

end Joins

theorem laid_recognise {text : String} {raw : List Token} (h : cut text = .ok raw)
    (reg : Registry) (n : Nat) (c : Catalog) : Laid (recognise reg n raw c).1 := by
  obtain ⟨hraw, -, hplaced⟩ := laid_of_cut (cut_of_cut h)
  obtain ⟨us, htrim, hjoins⟩ := joins_recognise reg n raw c
  exact (hjoins.laid (hraw.trimmed hplaced htrim)).1

/-- The byte is the first bracket of a `>>` among the pieces `raw` of a text, of which only the
second one is among the tokens `out`. -/
def CutOff (raw out : List Token) (b : Nat) : Prop :=
  (∃ t ∈ raw, t.kind = .operator (.binary .shr) ∧ t.span.start = b) ∧
    ∃ t ∈ out, t.kind = .operator (.binary .gt) ∧ t.span.start = b + 1

section Recognised

variable {raw out : List Token} {b : Nat} (hraw : Laid raw)
  (hplaced : ∀ t ∈ raw, Placed offset cs t) (htrim : Trimmed raw us) (hjoins : Joins us out)

include hraw hplaced htrim hjoins

theorem exists_covers (hcovers : ∃ t ∈ raw, t.Covers b) (hb : ¬CutOff raw out b) :
    ∃ o ∈ out, o.Covers b := by
  have hus := hraw.trimmed hplaced htrim
  obtain ⟨t, ht, hstart, hstop⟩ := hcovers
  obtain ⟨u, hu, htu⟩ := exists_trims htrim t ht
  rcases hjoins.exists_mem hus hu with hmem | ⟨o, ho, hfirst, hlast, hinside⟩
  · refine ⟨u, hmem, ?_, htu.stop ▸ hstop⟩
    cases htu with
    | same => exact hstart
    | second hk =>
      -- the second bracket is a token, so that the byte is not the first one
      by_contra hlt
      have heq : t.span.start = b := by
        simp only [second] at hlt
        omega
      exact hb ⟨⟨t, ht, hk, heq⟩, t.second, hmem, rfl, by rw [← heq]; rfl⟩
  · refine ⟨o, ho, ?_, Nat.lt_of_lt_of_le (htu.stop ▸ hstop) hlast⟩
    cases htu with
    | same => exact Nat.le_trans hfirst hstart
    | second hk =>
      have hlt : o.span.start < t.span.start + 1 := hinside.resolve_left nofun
      exact Nat.le_trans (Nat.le_of_lt_succ hlt) hstart

theorem not_covers_of_cutOff (hb : CutOff raw out b) : ∀ o ∈ out, ¬o.Covers b := by
  have hus := hraw.trimmed hplaced htrim
  obtain ⟨hout, hends⟩ := hjoins.laid hus
  obtain ⟨⟨t, ht, hk, rfl⟩, v, hv, hkv, hstart⟩ := hb
  intro o ho hcovers
  obtain ⟨hfirst, hlast⟩ := hcovers
  have hvstop := hout.nonempty v hv
  have htwo := (hplaced t ht).pair hk
  -- the token would end between the two brackets, and so would one of the pieces
  obtain ⟨_, _, z, hz, hspan⟩ := hends o ho
  obtain ⟨w, hw, hwz⟩ := exists_trimmed htrim z hz
  have hstop : o.span.stop = w.span.stop := by rw [hspan, hwz.stop]
  have hwpos := hraw.nonempty w hw
  rcases hout.apart ho hv with rfl | hle | hle
  · omega
  · rcases hraw.apart hw ht with rfl | hle' | hle' <;> omega
  · omega

end Recognised

end Token

/-! ### All tokens -/

/-- **Every byte that matters is in one token, unless it was cut off.** The tokens stand one after
the other, and each begins and ends between two characters. -/
theorem TokenList.tiles_of_ofText {reg : Registry} {text : String} {c c' : Catalog}
    {ts : TokenList} (h : ofText reg text c = .ok (ts, c')) :
    (∀ t ∈ ts.init.toList, t.span.start < t.span.stop ∧ Text.IsBoundary text t.span.start ∧
      Text.IsBoundary text t.span.stop) ∧
    (ts.init.toList.Pairwise fun t u => t.span.stop ≤ u.span.start) ∧
    ∃ raw, Token.cut text = .ok raw ∧ ∀ b, Text.Significant text b →
      (Token.CutOff raw ts.init.toList b → ∀ t ∈ ts.init.toList, ¬t.Covers b) ∧
      (¬Token.CutOff raw ts.init.toList b → ts.init.toList.countP (·.Covers b) = 1) := by
  obtain ⟨raw, hcut, hinit⟩ := exists_of_ofText h
  obtain ⟨hraw, -, hplaced⟩ := Token.laid_of_cut (Token.cut_of_cut hcut)
  obtain ⟨us, htrim, hjoins⟩ := Token.joins_recognise reg raw.length raw c
  rw [← hinit] at hjoins
  generalize ts.init.toList = out at hjoins ⊢
  have hus := hraw.trimmed hplaced htrim
  obtain ⟨hout, hends⟩ := hjoins.laid hus
  have hplaced' : ∀ u ∈ us, Token.Placed 0 text.toList u := fun u hu => by
    obtain ⟨t, ht, htu⟩ := Token.exists_trimmed htrim u hu
    exact (hplaced t ht).trims htu
  refine ⟨fun o ho => ⟨hout.nonempty o ho, ?_, ?_⟩, hout.order, raw, hcut,
    fun b hb => ⟨Token.not_covers_of_cutOff hraw hplaced htrim hjoins, fun hcutOff => ?_⟩⟩
  · obtain ⟨a, ha, z, -, hspan⟩ := hends o ho
    rw [hspan]
    exact (hplaced' a ha).start
  · obtain ⟨_, _, z, hz, hspan⟩ := hends o ho
    rw [hspan]
    exact (hplaced' z hz).stop
  · have hcovers := (Token.covers_iff_of_cut (Token.cut_of_cut hcut) b).1 hb
    obtain ⟨o, ho, hb⟩ := Token.exists_covers hraw hplaced htrim hjoins hcovers hcutOff
    exact hout.countP_covers ho hb

/-- The first bracket of the `>>` closes the list, but is not taken up by the type. -/
theorem TokenList.tiles_of_ofText_closed : ∃ ts c,
    ofText .lists "List<int>>3" .initial = .ok (ts, c) ∧
    ts.init.toList = [⟨.type (.named "List" [.named "int" []]), ⟨0, 8⟩, 1⟩,
      ⟨.operator (.binary .gt), ⟨9, 10⟩, 1⟩, ⟨.int 3, ⟨10, 11⟩, 1⟩] ∧
    Text.Significant "List<int>>3" 8 ∧ (∀ t ∈ ts.init.toList, ¬t.Covers 8) ∧
    ts.init.toList.countP (·.Covers 9) = 1 := by
  have hcut : Token.cut "List<int>>3" = .ok [⟨.ident "List" [], ⟨0, 4⟩, 1⟩,
      ⟨.operator (.binary .lt), ⟨4, 5⟩, 1⟩, ⟨.ident "int" [], ⟨5, 8⟩, 1⟩,
      ⟨.operator (.binary .shr), ⟨8, 10⟩, 1⟩, ⟨.int 3, ⟨10, 11⟩, 1⟩] := by
    rfl
  obtain ⟨ts, c, hts, hinit⟩ := ofText_of_cut hcut .lists .initial
  obtain ⟨-, -, raw, hraw, hbytes⟩ := tiles_of_ofText hts
  obtain rfl := Except.ok.inj (hcut.symm.trans hraw)
  have hout : ts.init.toList = [⟨.type (.named "List" [.named "int" []]), ⟨0, 8⟩, 1⟩,
      ⟨.operator (.binary .gt), ⟨9, 10⟩, 1⟩, ⟨.int 3, ⟨10, 11⟩, 1⟩] := by
    rw [hinit]
    decide +kernel
  have hfirst : Text.Significant "List<int>>3" 8 :=
    ⟨8, ('>', .code), rfl, by decide +kernel, rfl⟩
  have hsecond : Text.Significant "List<int>>3" 9 :=
    ⟨9, ('>', .code), rfl, by decide +kernel, rfl⟩
  refine ⟨ts, c, hts, hout, hfirst, (hbytes 8 hfirst).1 ?_, (hbytes 9 hsecond).2 ?_⟩
  · rw [hout]
    exact ⟨⟨_, .tail _ (.tail _ (.tail _ (.head _))), rfl, rfl⟩, _, .tail _ (.head _), rfl, rfl⟩
  · rintro ⟨⟨t, ht, hk, hstart⟩, -⟩
    simp only [List.mem_cons, List.not_mem_nil, or_false] at ht
    rcases ht with rfl | rfl | rfl | rfl | rfl <;> cases hk
    cases hstart

end TypedExpr
