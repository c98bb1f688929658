import TypedExpr.Text.Search
/-!
# The search for a text, by its bytes

A text is kept in bytes, one to four for a character, and can be searched for in these as well. What
is found is the same: a byte that begins a character is in no other place of one, so where the bytes
of a text are found, a character begins. The characters in front of the place are counted by the
bytes that begin one.

* `Text.utf8_prefix_iff`: the bytes of a text begin with those of another just if the text does.
* `Text.findFrom_bytes`: the search among bytes goes along with the search among characters.
* `Text.find?_eq_bytes`: **the place found is that of the bytes, in characters.**
-/

namespace TypedExpr.Text

/-- The bytes of characters. -/
def utf8 (cs : List Char) : List UInt8 := cs.flatMap String.utf8EncodeChar

variable {c : Char} {cs ds : List Char}

theorem utf8_cons : utf8 (c :: cs) = String.utf8EncodeChar c ++ utf8 cs := List.flatMap_cons

theorem utf8_append : utf8 (cs ++ ds) = utf8 cs ++ utf8 ds := List.flatMap_append

/-- These are the bytes in which a text is kept. -/
theorem toByteArray_utf8 (s : String) : (utf8 s.toList).toByteArray = s.toByteArray :=
  String.utf8Encode_toList

theorem utf8_prefix_iff : utf8 cs <+: utf8 ds ↔ cs <+: ds := by
  constructor
  · rintro ⟨rest, h⟩
    refine List.isPrefix_of_utf8Encode_append_eq_utf8Encode rest.toByteArray ?_
    have hbytes := congrArg List.toByteArray h
    rwa [List.toByteArray_append] at hbytes
  · rintro ⟨rest, rfl⟩
    exact ⟨utf8 rest, utf8_append.symm⟩

/-! ### Bytes that begin a character -/

/-- Inside a character no text begins. -/
theorem not_prefix_drop {k : Nat} (hds : ds ≠ []) (hk : 0 < k)
    (hlt : k < (String.utf8EncodeChar c).length) : ¬utf8 ds <+: (utf8 (c :: cs)).drop k := by
  obtain ⟨d, ds, rfl⟩ := List.exists_cons_of_ne_nil hds
  rintro ⟨rest, h⟩
  have hd : 0 < (String.utf8EncodeChar d).length :=
    List.length_pos_iff.mpr String.utf8EncodeChar_ne_nil
  have hfirst := congrArg (·[0]?) h
  rw [utf8_cons, utf8_cons] at hfirst
  simp only [List.append_assoc, List.getElem?_append_left hd, List.getElem?_drop, Nat.add_zero,
    List.getElem?_append_left hlt, List.getElem?_eq_getElem hd, List.getElem?_eq_getElem hlt,
    Option.some.injEq] at hfirst
  have hbegins : (String.utf8EncodeChar d)[0].IsUTF8FirstByte :=
    UInt8.isUTF8FirstByte_getElem_utf8EncodeChar.mpr rfl
  rw [hfirst, UInt8.isUTF8FirstByte_getElem_utf8EncodeChar] at hbegins
  omega

/-- How many characters begin in bytes. -/
def beginnings (bs : List UInt8) : Nat := bs.countP fun b => decide b.IsUTF8FirstByte

theorem beginnings_utf8EncodeChar (c : Char) : beginnings (String.utf8EncodeChar c) = 1 := by
  obtain ⟨b, bs, hc⟩ := List.exists_cons_of_ne_nil (String.utf8EncodeChar_ne_nil (c := c))
  have hplace {i : Nat} (hi : i < (b :: bs).length) : (b :: bs)[i].IsUTF8FirstByte ↔ i = 0 := by
    simp only [← hc]
    exact UInt8.isUTF8FirstByte_getElem_utf8EncodeChar
  have hrest : bs.countP (fun b => decide b.IsUTF8FirstByte) = 0 := by
    refine List.countP_eq_zero.mpr fun b' hb' hfirst => ?_
    obtain ⟨i, hi, rfl⟩ := List.getElem_of_mem hb'
    exact Nat.succ_ne_zero i ((hplace (Nat.succ_lt_succ hi)).mp (of_decide_eq_true hfirst))
  have hfirst : b.IsUTF8FirstByte := (hplace (Nat.succ_pos _)).mpr rfl
  rw [hc, beginnings, List.countP_cons_of_pos (by exact decide_eq_true hfirst), hrest]

theorem beginnings_utf8 (cs : List Char) : beginnings (utf8 cs) = cs.length := by
  induction cs with
  | nil => rfl
  | cons c cs ih =>
    have happend : beginnings (utf8 (c :: cs)) =
        beginnings (String.utf8EncodeChar c) + beginnings (utf8 cs) := by
      rw [utf8_cons]
      exact List.countP_append
    rw [happend, beginnings_utf8EncodeChar, ih, List.length_cons, Nat.add_comm]

/-! ### Searching -/

section

variable {α : Type} [BEq α] {needle xs ys : List α} {i : Nat}

theorem findFrom_nil (h : ¬needle <+: []) : findFrom needle [] i = none := by
  cases needle with
  | nil => exact absurd List.nil_prefix h
  | cons x xs => rfl

variable [LawfulBEq α]

theorem findFrom_of_prefix (h : needle <+: xs) : findFrom needle xs i = some i := by
  cases xs with
  | nil =>
    rw [List.prefix_nil.mp h]
    rfl
  | cons x xs => exact if_pos (List.isPrefixOf_iff_prefix.mpr h)

theorem findFrom_cons {x : α} (h : ¬needle <+: x :: xs) :
    findFrom needle (x :: xs) i = findFrom needle xs (i + 1) :=
  if_neg (mt List.isPrefixOf_iff_prefix.mp h)

/-- Where nothing is found, the search goes on behind. -/
theorem findFrom_append (h : ∀ k < xs.length, ¬needle <+: (xs ++ ys).drop k) :
    findFrom needle (xs ++ ys) i = findFrom needle ys (i + xs.length) := by
  induction xs generalizing i with
  | nil => rfl
  | cons x xs ih =>
    have hrest (k : Nat) (hk : k < xs.length) : ¬needle <+: (xs ++ ys).drop k :=
      h (k + 1) (Nat.succ_lt_succ hk)
    have hfirst : ¬needle <+: x :: (xs ++ ys) := h 0 (Nat.succ_pos _)
    rw [List.cons_append, findFrom_cons hfirst, ih hrest, List.length_cons]
    congr 1
    omega

end

/-- The two searches go along with each other: both find nothing, or the bytes are found behind
those of as many characters as are in front of the text. -/
theorem findFrom_bytes (ds cs : List Char) (i j : Nat) :
    (∃ n ≤ cs.length, findFrom ds cs j = some (j + n) ∧
      findFrom (utf8 ds) (utf8 cs) i = some (i + (utf8 (cs.take n)).length)) ∨
    findFrom ds cs j = none ∧ findFrom (utf8 ds) (utf8 cs) i = none := by
  induction cs generalizing i j with
  | nil =>
    by_cases hp : ds <+: []
    · exact .inl ⟨0, Nat.le_refl 0, findFrom_of_prefix hp,
        findFrom_of_prefix (utf8_prefix_iff.mpr hp)⟩
    · have hbytes : ¬utf8 ds <+: utf8 [] := mt utf8_prefix_iff.mp hp
      exact .inr ⟨findFrom_nil hp, findFrom_nil hbytes⟩
  | cons c cs ih =>
    by_cases hp : ds <+: c :: cs
    · exact .inl ⟨0, Nat.zero_le _, findFrom_of_prefix hp,
        findFrom_of_prefix (utf8_prefix_iff.mpr hp)⟩
    · -- the bytes are neither found at the first character nor inside it
      have hds : ds ≠ [] := fun h => hp (h ▸ List.nil_prefix)
      have hnone : ∀ k < (String.utf8EncodeChar c).length,
          ¬utf8 ds <+: (String.utf8EncodeChar c ++ utf8 cs).drop k := by
        intro k hk
        rw [← utf8_cons]
        rcases Nat.eq_zero_or_pos k with rfl | hpos
        · exact mt utf8_prefix_iff.mp hp
        · exact not_prefix_drop hds hpos hk
      rw [findFrom_cons hp, utf8_cons, findFrom_append hnone]
      obtain ⟨n, hn, hfind, hbytes⟩ | hnone := ih (i + (String.utf8EncodeChar c).length) (j + 1)
      · refine .inl ⟨n + 1, Nat.succ_le_succ hn, ?_, ?_⟩
        · rw [hfind]
          congr 1
          omega
        · rw [hbytes, List.take_succ_cons, utf8_cons, List.length_append, Nat.add_assoc]
      · exact .inr hnone

/-- **The place that is found is that of the bytes**, counted in the characters that begin in front
of it. It is between two characters: what is in front of it are the bytes of these characters. -/
theorem find?_eq_bytes (s t : String) :
    find? s t = (findFrom (utf8 t.toList) (utf8 s.toList) 0).map
      (fun b => beginnings ((utf8 s.toList).take b)) ∧
    ∀ b, findFrom (utf8 t.toList) (utf8 s.toList) 0 = some b →
      (utf8 s.toList).take b =
        utf8 (s.toList.take (beginnings ((utf8 s.toList).take b))) := by
  obtain ⟨n, hn, hfind, hbytes⟩ | ⟨hfind, hbytes⟩ := findFrom_bytes t.toList s.toList 0 0
  · have hcut : utf8 s.toList = utf8 (s.toList.take n) ++ utf8 (s.toList.drop n) := by
      rw [← utf8_append, List.take_append_drop]
    have htake : (utf8 s.toList).take (utf8 (s.toList.take n)).length =
        utf8 (s.toList.take n) := by
      rw [hcut]
      exact List.take_left
    have hcount : beginnings (utf8 (s.toList.take n)) = n := by
      rw [beginnings_utf8, List.length_take, Nat.min_eq_left hn]
    rw [hbytes, Nat.zero_add]
    refine ⟨?_, ?_⟩
    · rw [find?, hfind, Option.map_some, htake, hcount, Nat.zero_add]
    · rintro b ⟨⟩
      rw [htake, hcount]
  · rw [hbytes]
    exact ⟨hfind, nofun⟩

end TypedExpr.Text
