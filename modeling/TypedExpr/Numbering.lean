/-!
# Numberings

A numbering hands out the numbers `0, 1, 2, …` to things in the order in which they are first
mentioned. Names and types are numbered in this way; a number, once handed out, never changes. The
way from things to numbers is a map, the way back a table, and each is the inverse of the other.

* `Numbering.get?_note_self`: a number that was handed out names what it was handed out for.
* `Numbering.get?_note`: noting something new leaves every earlier number as it was.
* `Numbering.Operation.run`: what can be done where there are only so many numbers, with answers.
-/

namespace TypedExpr

/-- Distinct things and their numbers. -/
structure Numbering (α : Type) [DecidableEq α] where
  /-- The number of each thing. -/
  numbers : List (α × Nat)
  /-- The things, each at the place that its number says. -/
  items : Array α
  inverse : ∀ a i, numbers.lookup a = some i ↔ items[i]? = some a

namespace Numbering

variable {α : Type} [DecidableEq α]

/-- Nothing is numbered. -/
def empty : Numbering α := ⟨[], #[], fun _ _ => by simp⟩

instance : Inhabited (Numbering α) := ⟨empty⟩

/-- How many things are numbered. -/
def size (n : Numbering α) : Nat := n.items.size

/-- What carries the number `i`. -/
def get? (n : Numbering α) (i : Nat) : Option α := n.items[i]?

/-- The number of `a`, if it has one. -/
def find? (n : Numbering α) (a : α) : Option Nat := n.numbers.lookup a

/-- The number of `a`; the next free one if it has none. -/
def number (n : Numbering α) (a : α) : Nat := (n.find? a).getD n.size

/-- The way from things to numbers is the inverse of the way back. -/
theorem find?_eq_some_iff {n : Numbering α} {a : α} {i : Nat} :
    n.find? a = some i ↔ n.get? i = some a := n.inverse a i

theorem lookup_cons (a b : α) (i : Nat) (numbers : List (α × Nat)) :
    ((a, i) :: numbers).lookup b = if b = a then some i else numbers.lookup b := by
  rw [List.lookup_cons]
  split <;> simp_all

/-- The next free number is given to `a`. -/
def add (n : Numbering α) (a : α) (h : n.find? a = none) : Numbering α where
  numbers := (a, n.size) :: n.numbers
  items := n.items.push a
  inverse b i := by
    -- So far `a` is at no place, and nothing is at the place that it gets.
    have hfree : n.items[i]? ≠ some a := fun hi => by cases h.symm.trans ((n.inverse a i).2 hi)
    have hnext : n.items[n.items.size]? = none := Array.getElem?_size
    have hothers := n.inverse b i
    rw [lookup_cons, Array.getElem?_push]
    grind [size]

/-- Mention `a`: it gets the next free number unless it has one. -/
def note (n : Numbering α) (a : α) : Numbering α :=
  match h : n.find? a with
  | some _ => n
  | none => n.add a h

/-- Mention several things in order. -/
def noteAll (n : Numbering α) (as : List α) : Numbering α := as.foldl note n

/-! ### Operations with answers -/

/-- What can be done with a numbering. -/
inductive Operation (α : Type) where
  | mention (a : α)
  | find (a : α)
  | look (i : Nat)
  | count

/-- What an operation answers. -/
inductive Answer (α : Type) where
  | number (i : Nat)
  | full (count : Nat)
  | found (i : Option Nat)
  | thing (a : α)
  | unknown
  | size (count : Nat)
  deriving DecidableEq

namespace Operation

/-- The answer of an operation, and what it leaves behind. There are `limit` numbers. A number that
has not been given away is looked up as the fallback, if there is one. -/
def run (limit : Nat) (fallback : Option α) (n : Numbering α) :
    Operation α → Answer α × Numbering α
  | mention a =>
    match n.find? a with
    | some i => (.number i, n)
    | none => if n.size < limit then (.number n.size, n.note a) else (.full n.size, n)
  | find a => (.found (n.find? a), n)
  | look i => (((n.get? i).or fallback).elim .unknown .thing, n)
  | count => (.size n.size, n)

/-- What an operation leaves behind. -/
def after (limit : Nat) (fallback : Option α) (n : Numbering α) (op : Operation α) : Numbering α :=
  (op.run limit fallback n).2

end Operation

/-! ### What a mention does -/

variable {n : Numbering α} {a : α}

theorem note_of_find? {i : Nat} (h : n.find? a = some i) : n.note a = n := by
  unfold note
  split
  · rfl
  · rename_i hnone
    cases h.symm.trans hnone

theorem note_of_free (h : n.find? a = none) : n.note a = n.add a h := by
  unfold note
  split
  · rename_i hsome
    cases h.symm.trans hsome
  · rfl

theorem get?_note_self (n : Numbering α) (a : α) : (n.note a).get? (n.number a) = some a := by
  unfold number
  cases h : n.find? a with
  | some i =>
    rw [note_of_find? h]
    exact find?_eq_some_iff.1 h
  | none =>
    rw [note_of_free h]
    exact Array.getElem?_push_size

theorem get?_note (n : Numbering α) (a : α) {i : Nat} {b : α} (h : n.get? i = some b) :
    (n.note a).get? i = some b := by
  cases ha : n.find? a with
  | some _ => rwa [note_of_find? ha]
  | none =>
    rw [note_of_free ha]
    obtain ⟨hi, -⟩ := Array.getElem?_eq_some_iff.1 h
    exact (Array.getElem?_push_lt hi).trans ((Array.getElem?_eq_getElem hi).symm.trans h)

end Numbering

end TypedExpr
