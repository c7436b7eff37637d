import Dataflow.Method.Flow
import Mathlib.Algebra.Group.Nat.Even

/-!
# Quoted strings in descriptions of graphs

How the DOT language reads quoted strings, and which titles and labels it reads back from the description
of a graph.
-/

namespace Dataflow

namespace Dot

/-! ## Reading -/

/-- A description consists of strings and of the characters between them. -/
inductive Token where
  | char (c : Char)
  | string (s : List Char)
deriving DecidableEq, Repr

/-- Characters in front of a string that goes on. -/
def before (cs : List Char) (p : List Char × List Token) : List Char × List Token := (cs ++ p.1, p.2)

mutual
/-- Reads what follows between strings. -/
def scan : List Char → Option (List Token)
  | [] => some []
  | c :: r =>
        if c = '"' then (scanString r).map fun p => .string p.1 :: p.2
        else (scan r).map (.char c :: ·)

/-- Reads what follows inside a string. It ends at the first quote that is not escaped. An escaped quote
stands for a quote; an escaped backslash stays as it is. -/
def scanString : List Char → Option (List Char × List Token)
  | [] => none
  | '"' :: r => (scan r).map ([], ·)
  | '\\' :: '"' :: r => (scanString r).map (before ['"'])
  | '\\' :: '\\' :: r => (scanString r).map (before ['\\', '\\'])
  | c :: r => (scanString r).map (before [c])
end

example : scan "a\"b\\\"c\"".toList = some [.char 'a', .string ['b', '"', 'c']] := by decide

variable {s t r : List Char} {c : Char}

theorem scan_quote (r : List Char) :
    scan ('"' :: r) = (scanString r).map fun p => .string p.1 :: p.2 := by
  simp [scan]

theorem scan_of_ne (h : c ≠ '"') (r : List Char) : scan (c :: r) = (scan r).map (.char c :: ·) := by
  simp [scan, h]

theorem scanString_quote (r : List Char) : scanString ('"' :: r) = (scan r).map ([], ·) := by
  simp [scanString]

theorem scanString_escaped (r : List Char) :
    scanString ('\\' :: '"' :: r) = (scanString r).map (before ['"']) := by
  simp [scanString]

theorem scanString_pair (r : List Char) :
    scanString ('\\' :: '\\' :: r) = (scanString r).map (before ['\\', '\\']) := by
  simp [scanString]

theorem scanString_of_ne (hq : c ≠ '"') (hb : c ≠ '\\') (r : List Char) :
    scanString (c :: r) = (scanString r).map (before [c]) := by
  rw [scanString]
  · exact hq
  · rintro r rfl
    exact absurd rfl hb
  · rintro r rfl
    exact absurd rfl hb

theorem scanString_backslash (hq : c ≠ '"') (hb : c ≠ '\\') (r : List Char) :
    scanString ('\\' :: c :: r) = (scanString (c :: r)).map (before ['\\']) := by
  rw [scanString]
  · simp
  · simp [hq]
  · simp [hb]

theorem map_before_eq_some {o : Option (List Char × List Token)} {cs : List Char} {us : List Token} :
    o.map (before cs) = some (s, us) ↔ ∃ t, s = cs ++ t ∧ o = some (t, us) := by
  rcases o with - | ⟨u, us⟩
  · simp
  · simp only [before, Option.map_some, Option.some.injEq, Prod.mk.injEq]
    constructor
    · rintro ⟨rfl, rfl⟩
      exact ⟨u, rfl, rfl, rfl⟩
    · rintro ⟨_, rfl, rfl, rfl⟩
      exact ⟨rfl, rfl⟩

/-! ## Backslashes before quotes -/

/-- The backslashes at the end. -/
def backslashes (s : List Char) : Nat := (s.reverse.takeWhile (· = '\\')).length

/-- The part before a quote, or the whole. -/
def Ends (s p : List Char) : Prop := p = s ∨ p ++ ['"'] <+: s

/-- An even number of backslashes stands before every quote and at the end. -/
def Paired (s : List Char) : Prop := ∀ p, Ends s p → Even (backslashes p)

theorem ends_cons {p : List Char} : Ends (c :: t) p ↔ p = [] ∧ c = '"' ∨ ∃ q, p = c :: q ∧ Ends t q := by
  cases p with
  | nil => simp [Ends, eq_comm]
  | cons d q =>
      simp only [Ends, List.cons_append, List.cons_prefix_cons, List.cons.injEq]
      constructor
      · rintro (⟨rfl, h⟩ | ⟨rfl, h⟩)
        · exact .inr ⟨q, ⟨rfl, rfl⟩, .inl h⟩
        · exact .inr ⟨q, ⟨rfl, rfl⟩, .inr h⟩
      · rintro (⟨h, -⟩ | ⟨_, ⟨rfl, rfl⟩, h⟩)
        · cases h
        · exact h.imp (⟨rfl, ·⟩) (⟨rfl, ·⟩)

theorem backslashes_cons (c : Char) (p : List Char) :
    backslashes (c :: p) =
      if backslashes p = p.length ∧ c = '\\' then p.length + 1 else backslashes p := by
  simp only [backslashes, List.reverse_cons, List.takeWhile_append, List.length_reverse]
  by_cases h : (p.reverse.takeWhile (· = '\\')).length = p.length <;>
    by_cases hc : c = '\\' <;> simp [h, hc]

theorem backslashes_cons_of_ne (h : c ≠ '\\') (p : List Char) :
    backslashes (c :: p) = backslashes p := by
  simp [backslashes_cons, h]

theorem backslashes_le (p : List Char) : backslashes p ≤ p.length := by
  simpa [backslashes] using (List.takeWhile_sublist (p := (· = '\\')) (l := p.reverse)).length_le

theorem backslashes_cons_cons (h : c ≠ '\\') (d : Char) (p : List Char) :
    backslashes (d :: c :: p) = backslashes p := by
  have hle := backslashes_le p
  have hne : backslashes p ≠ p.length + 1 := by omega
  simp [backslashes_cons, h, hne]

theorem even_backslashes_pair {p : List Char} :
    Even (backslashes ('\\' :: '\\' :: p)) ↔ Even (backslashes p) := by
  by_cases h : backslashes p = p.length
  · simp [backslashes_cons, h, Nat.even_add_one]
  · have hle := backslashes_le p
    have hne : backslashes p ≠ p.length + 1 := by omega
    simp [backslashes_cons, h, hne]

@[simp]
theorem paired_nil : Paired [] := by
  rintro p (rfl | h)
  · exact Even.zero
  · simp at h

theorem ends_append {w : List Char} (hw : '"' ∉ w) {p : List Char} :
    Ends (w ++ t) p ↔ ∃ q, p = w ++ q ∧ Ends t q := by
  induction w generalizing p with
  | nil => simp
  | cons c w ih =>
      simp only [List.mem_cons, not_or] at hw
      simp only [List.cons_append, ends_cons, Ne.symm hw.1, and_false, false_or]
      constructor
      · rintro ⟨_, rfl, h⟩
        obtain ⟨q, rfl, hq⟩ := (ih hw.2).1 h
        exact ⟨q, rfl, hq⟩
      · rintro ⟨q, rfl, hq⟩
        exact ⟨w ++ q, rfl, (ih hw.2).2 ⟨q, rfl, hq⟩⟩

theorem paired_quote : Paired ('"' :: t) ↔ Paired t := by
  simp only [Paired, ends_cons]
  constructor
  · intro h q hq
    rw [← backslashes_cons_of_ne (c := '"') (by decide)]
    exact h _ (.inr ⟨q, rfl, hq⟩)
  · rintro h p (⟨rfl, -⟩ | ⟨q, rfl, hq⟩)
    · exact Even.zero
    · rw [backslashes_cons_of_ne (by decide)]
      exact h q hq

theorem paired_append {w : List Char} (hw : '"' ∉ w)
    (heven : ∀ p, Even (backslashes (w ++ p)) ↔ Even (backslashes p)) : Paired (w ++ t) ↔ Paired t := by
  simp only [Paired, ends_append hw]
  constructor
  · intro h q hq
    exact (heven q).1 (h _ ⟨q, rfl, hq⟩)
  · rintro h _ ⟨q, rfl, hq⟩
    exact (heven q).2 (h q hq)

theorem paired_cons_of_ne (hq : c ≠ '"') (hb : c ≠ '\\') : Paired (c :: t) ↔ Paired t :=
  paired_append (w := [c]) (by simp [hq.symm]) fun p => by simp [backslashes_cons_of_ne hb]

theorem paired_pair : Paired ('\\' :: '\\' :: t) ↔ Paired t :=
  paired_append (w := ['\\', '\\']) (by decide) fun _ => even_backslashes_pair

theorem paired_backslash (hq : c ≠ '"') (hb : c ≠ '\\') : Paired ('\\' :: c :: t) ↔ Paired (c :: t) := by
  rw [paired_cons_of_ne hq hb]
  exact paired_append (w := ['\\', c]) (by simp [hq.symm]) fun p => by simp [backslashes_cons_cons hb]

theorem not_paired_escaped : ¬Paired ('\\' :: '"' :: t) := fun h =>
  absurd (h ['\\'] (.inr (by simp))) (by decide)

theorem not_paired_single : ¬Paired ['\\'] := fun h => absurd (h ['\\'] (.inl rfl)) (by decide)

theorem paired_of_notMem (h : '\\' ∉ s) : Paired s := by
  induction s with
  | nil => exact paired_nil
  | cons c s ih =>
      simp only [List.mem_cons, not_or] at h
      by_cases hq : c = '"'
      · exact hq ▸ paired_quote.2 (ih h.2)
      · exact (paired_cons_of_ne hq (Ne.symm h.1)).2 (ih h.2)

/-! ## Reading a string back -/

/-- Splits a string as the reader does: an escape pair is one step. -/
@[elab_as_elim]
theorem pairs_induction {motive : List Char → Prop} (nil : motive [])
    (quote : ∀ t, motive t → motive ('"' :: t)) (single : motive ['\\'])
    (escaped : ∀ t, motive t → motive ('\\' :: '"' :: t))
    (pair : ∀ t, motive t → motive ('\\' :: '\\' :: t))
    (backslash : ∀ c t, c ≠ '"' → c ≠ '\\' → motive (c :: t) → motive ('\\' :: c :: t))
    (other : ∀ c t, c ≠ '"' → c ≠ '\\' → motive t → motive (c :: t)) : ∀ s, motive s
  | [] => nil
  | [c] => by
    by_cases hq : c = '"'
    · exact hq ▸ quote [] nil
    · by_cases hb : c = '\\'
      · exact hb ▸ single
      · exact other c [] hq hb nil
  | c :: d :: t => by
    have ih := pairs_induction nil quote single escaped pair backslash other t
    have ihd := pairs_induction nil quote single escaped pair backslash other (d :: t)
    by_cases hq : c = '"'
    · exact hq ▸ quote _ ihd
    · by_cases hb : c = '\\'
      · subst hb
        by_cases hdq : d = '"'
        · exact hdq ▸ escaped t ih
        · by_cases hdb : d = '\\'
          · exact hdb ▸ pair t ih
          · exact backslash d t hdq hdb ihd
      · exact other c _ hq hb ihd

/-- A backslash before every quote. -/
def escape (s : List Char) : List Char := s.flatMap fun c => if c = '"' then ['\\', '"'] else [c]

theorem toList_escapeQuotes (s : String) : (Graph.escapeQuotes s).toList = escape s.toList :=
  String.toList_ofList

theorem escape_cons_of_ne (h : c ≠ '"') : escape (c :: t) = c :: escape t := by
  simp [escape, h]

theorem escape_quote : escape ('"' :: t) = '\\' :: '"' :: escape t := rfl

theorem escape_of_notMem (h : '"' ∉ s) : escape s = s := by
  induction s with
  | nil => rfl
  | cons c s ih =>
      simp only [List.mem_cons, not_or] at h
      rw [escape_cons_of_ne (Ne.symm h.1), ih h.2]

variable {us : List Token}

theorem scanString_escape_append :
    scanString (escape s ++ '"' :: r) = some (s, us) ↔ Paired s ∧ scan r = some us := by
  induction s using pairs_induction with
  | nil => simp [escape, scanString_quote]
  | quote t ih =>
      simp only [escape_quote, List.cons_append, scanString_escaped, map_before_eq_some]
      simp [paired_quote, ih]
  | single =>
      -- the backslash escapes the quote that should end the string
      rw [escape_cons_of_ne (by decide), List.cons_append]
      simp only [escape, List.flatMap_nil, List.nil_append, scanString_escaped, map_before_eq_some]
      simp [not_paired_single]
  | escaped t ih =>
      -- the backslash pairs with the one that is put before the quote, so that the quote ends the string
      rw [escape_cons_of_ne (by decide), escape_quote]
      simp only [List.cons_append, scanString_pair, map_before_eq_some]
      simp [not_paired_escaped]
  | pair t ih =>
      rw [escape_cons_of_ne (by decide), escape_cons_of_ne (by decide)]
      simp only [List.cons_append, scanString_pair, map_before_eq_some]
      simp [paired_pair, ih]
  | backslash c t hq hb ih =>
      rw [escape_cons_of_ne hq, List.cons_append] at ih
      rw [escape_cons_of_ne (by decide), escape_cons_of_ne hq]
      simp only [List.cons_append, scanString_backslash hq hb, map_before_eq_some]
      simp [paired_backslash hq hb, ih]
  | other c t hq hb ih =>
      rw [escape_cons_of_ne hq]
      simp only [List.cons_append, scanString_of_ne hq hb, map_before_eq_some]
      simp [paired_cons_of_ne hq hb, ih]

theorem notMem_of_scanString_append (h : scanString (s ++ '"' :: r) = some (s, us)) : '"' ∉ s := by
  induction s using pairs_induction with
  | nil => simp
  | quote t ih => simp [scanString_quote] at h
  | single => simp
  | escaped t ih =>
      simp only [List.cons_append, scanString_escaped, map_before_eq_some] at h
      simp at h
  | pair t ih =>
      simp only [List.cons_append, scanString_pair, map_before_eq_some] at h
      obtain ⟨u, hu, h⟩ := h
      obtain rfl : t = u := by simpa using hu
      simpa using ih h
  | backslash c t hq hb ih =>
      simp only [List.cons_append, scanString_backslash hq hb, map_before_eq_some] at h
      obtain ⟨u, hu, h⟩ := h
      obtain rfl : c :: t = u := by simpa using hu
      simpa using ih h
  | other c t hq hb ih =>
      simp only [List.cons_append, scanString_of_ne hq hb, map_before_eq_some] at h
      obtain ⟨u, hu, h⟩ := h
      obtain rfl : t = u := by simpa using hu
      simpa [Ne.symm hq] using ih h

theorem scanString_append :
    scanString (s ++ '"' :: r) = some (s, us) ↔ ('"' ∉ s ∧ Paired s) ∧ scan r = some us := by
  have hescape : '"' ∉ s → (scanString (s ++ '"' :: r) = some (s, us) ↔ Paired s ∧ scan r = some us) :=
    fun hs => by
      have h : scanString (escape s ++ '"' :: r) = some (s, us) ↔ Paired s ∧ scan r = some us :=
        scanString_escape_append
      rwa [escape_of_notMem hs] at h
  constructor
  · intro h
    have hs := notMem_of_scanString_append h
    obtain ⟨hp, hr⟩ := (hescape hs).1 h
    exact ⟨⟨hs, hp⟩, hr⟩
  · rintro ⟨⟨hs, hp⟩, hr⟩
    exact (hescape hs).2 ⟨hp, hr⟩

/-! ## Reading a description back -/

/-- A text reads as these tokens, wherever it stands, if and only if the condition holds. -/
def ReadsIf (P : Prop) (t : List Char) (ts : List Token) : Prop :=
  ∀ r us, scan (t ++ r) = some (ts ++ us) ↔ P ∧ scan r = some us

variable {P Q : Prop} {ts us : List Token}

theorem ReadsIf.congr (h : ReadsIf P t ts) (hpq : P ↔ Q) : ReadsIf Q t ts := by
  rwa [← propext hpq]

theorem ReadsIf.append {u : List Char} (ht : ReadsIf P t ts) (hu : ReadsIf Q u us) :
    ReadsIf (P ∧ Q) (t ++ u) (ts ++ us) := fun r vs => by
  rw [List.append_assoc, List.append_assoc, ht, hu, and_assoc]

theorem readsIf_nil : ReadsIf True [] [] := fun r us => by simp

theorem ReadsIf.flatMap {α : Type} {l : List α} {P : α → Prop} {f : α → List Char} {g : α → List Token}
    (h : ∀ a ∈ l, ReadsIf (P a) (f a) (g a)) :
    ReadsIf (∀ a ∈ l, P a) (l.flatMap f) (l.flatMap g) := by
  induction l with
  | nil => exact readsIf_nil.congr (by simp)
  | cons a l ih =>
      simp only [List.forall_mem_cons] at h ⊢
      exact h.1.append (ih h.2)

/-- Text with no strings in it. -/
def plain (t : List Char) : List Token := t.map .char

theorem readsIf_plain (h : '"' ∉ t) : ReadsIf True t (plain t) := by
  induction t with
  | nil => exact readsIf_nil
  | cons c t ih =>
      simp only [List.mem_cons, not_or] at h
      intro r us
      rw [← ih h.2 r us, List.cons_append, scan_of_ne (Ne.symm h.1)]
      simp [plain]

theorem readsIf_quoted : ReadsIf ('"' ∉ s ∧ Paired s) ('"' :: s ++ ['"']) [.string s] := fun r us => by
  rw [← scanString_append]
  simp [scan_quote]

theorem readsIf_escaped : ReadsIf (Paired s) ('"' :: escape s ++ ['"']) [.string s] := fun r us => by
  rw [← scanString_escape_append]
  simp [scan_quote]

end Dot

/-! ## Descriptions of graphs -/

namespace Graph

open Dot

variable {N : Type} [DecidableEq N]

theorem notMem_toDigits (n : Nat) : '"' ∉ Nat.toDigits 10 n := fun h =>
  absurd (Nat.isDigit_of_mem_toDigits (by decide) (by decide) h) (by decide)

theorem notMem_kind (k : EdgeKind) : '"' ∉ k.name.toList := by
  cases k <;> decide

theorem notMem_edgeStyle (k : EdgeKind) : '"' ∉ (edgeStyle k).toList := by
  cases k <;> decide

/-- What a style reads as. -/
def styleTokens (g : Graph N) (n : N) : List Token :=
  if n = g.entry then plain ", style=filled, fillcolor=".toList ++ [.string "#ccffcc".toList]
  else if n = g.exit then plain ", style=filled, fillcolor=".toList ++ [.string "#ffcccc".toList]
  else []

/-- A line for a node, with its label as a string. -/
def nodeTokens (g : Graph N) (v : Labelling N) (n : N) : List Token :=
  plain ("  N" ++ toString (g.position n) ++ " [label=").toList ++ [.string (g.label v n).toList] ++
    g.styleTokens n ++ plain "];\n".toList

def edgeTokens (g : Graph N) (e : Edge N) : List Token :=
  plain ("  N" ++ toString (g.position e.src) ++ " -> N" ++ toString (g.position e.dst) ++ " [label=").toList ++
    [.string e.kind.name.toList] ++ plain (edgeStyle e.kind ++ "];\n").toList

/-- A description with its title and its labels as strings, each in its place. -/
def dotTokens (g : Graph N) (v : Labelling N) (title : String) : List Token :=
  plain "digraph CFG \x7b\n".toList ++
    (if title = "" then [] else plain "  label=".toList ++ [.string title.toList] ++ plain ";\n".toList) ++
    plain "  node [shape=box, fontname=monospace, fontsize=10];\n".toList ++
    g.nodes.flatMap (g.nodeTokens v) ++ g.edges.flatMap g.edgeTokens ++ plain "\x7d".toList

theorem toList_intercalate_newline (ls : List String) (l : String) :
    ("\n".intercalate (ls ++ [l])).toList = ls.flatMap (fun l => (l ++ "\n").toList) ++ l.toList := by
  rw [String.toList_intercalate]
  induction ls with
  | nil => simp
  | cons k ls ih =>
      simp only [List.map_append, List.map_cons, List.map_nil, List.cons_append] at ih ⊢
      rw [List.intercalate_cons_of_ne_nil (by simp), ih]
      simp

theorem toList_dot (g : Graph N) (v : Labelling N) (title : String) :
    (g.dot v title).toList =
      "digraph CFG \x7b\n".toList ++
        (if title = "" then [] else "  label=".toList ++ ('"' :: title.toList ++ ['"']) ++ ";\n".toList) ++
        "  node [shape=box, fontname=monospace, fontsize=10];\n".toList ++
        g.nodes.flatMap (fun n => (g.dotNode v n ++ "\n").toList) ++
        g.edges.flatMap (fun e => (g.dotEdge e ++ "\n").toList) ++ "\x7d".toList := by
  rw [dot, dotLines, toList_intercalate_newline]
  split <;> simp [List.flatMap_map]

theorem toList_dotNode (g : Graph N) (v : Labelling N) (n : N) :
    (g.dotNode v n ++ "\n").toList =
      ("  N" ++ toString (g.position n) ++ " [label=").toList ++
        ('"' :: escape (g.label v n).toList ++ ['"']) ++ (g.nodeStyle n).toList ++ "];\n".toList := by
  simp [dotNode, toList_escapeQuotes]

theorem toList_dotEdge (g : Graph N) (e : Edge N) :
    (g.dotEdge e ++ "\n").toList =
      ("  N" ++ toString (g.position e.src) ++ " -> N" ++ toString (g.position e.dst) ++
          " [label=").toList ++ ('"' :: e.kind.name.toList ++ ['"']) ++ (edgeStyle e.kind ++ "];\n").toList := by
  simp [dotEdge]

theorem readsIf_style (g : Graph N) (n : N) : ReadsIf True (g.nodeStyle n).toList (g.styleTokens n) := by
  have hcolour : ∀ s : String, '"' ∉ s.toList → '\\' ∉ s.toList →
      ReadsIf True (", style=filled, fillcolor=".toList ++ ('"' :: s.toList ++ ['"']))
        (plain ", style=filled, fillcolor=".toList ++ [.string s.toList]) := fun s hq hb =>
    ((readsIf_plain (by decide)).append readsIf_quoted).congr (by simp [hq, paired_of_notMem hb])
  rw [nodeStyle, styleTokens]
  split
  · exact hcolour "#ccffcc" (by decide) (by decide)
  · split
    · exact hcolour "#ffcccc" (by decide) (by decide)
    · exact readsIf_nil

theorem readsIf_node (g : Graph N) (v : Labelling N) (n : N) :
    ReadsIf (Paired (g.label v n).toList) (g.dotNode v n ++ "\n").toList (g.nodeTokens v n) := by
  have hname : '"' ∉ ("  N" ++ toString (g.position n) ++ " [label=").toList := by
    simp [notMem_toDigits]
  rw [toList_dotNode]
  exact ((((readsIf_plain hname).append readsIf_escaped).append (g.readsIf_style n)).append
    (readsIf_plain (by decide))).congr (by simp)

theorem readsIf_edge (g : Graph N) (e : Edge N) :
    ReadsIf True (g.dotEdge e ++ "\n").toList (g.edgeTokens e) := by
  have hname : '"' ∉ ("  N" ++ toString (g.position e.src) ++ " -> N" ++ toString (g.position e.dst) ++
      " [label=").toList := by
    simp [notMem_toDigits]
  have hstyle : '"' ∉ (edgeStyle e.kind ++ "];\n").toList := by
    simp [notMem_edgeStyle]
  have hkind : Paired e.kind.name.toList := paired_of_notMem (by cases e.kind <;> decide)
  rw [toList_dotEdge]
  exact (((readsIf_plain hname).append readsIf_quoted).append (readsIf_plain hstyle)).congr
    (by simp [notMem_kind, hkind])

theorem readsIf_title (title : String) :
    ReadsIf ('"' ∉ title.toList ∧ Paired title.toList)
      (if title = "" then [] else "  label=".toList ++ ('"' :: title.toList ++ ['"']) ++ ";\n".toList)
      (if title = "" then [] else plain "  label=".toList ++ [.string title.toList] ++ plain ";\n".toList) := by
  split
  · next h => exact readsIf_nil.congr (by simp [h])
  · exact (((readsIf_plain (by decide)).append readsIf_quoted).append (readsIf_plain (by decide))).congr
      (by simp)

theorem readsIf_dot (g : Graph N) (v : Labelling N) (title : String) :
    ReadsIf (('"' ∉ title.toList ∧ Paired title.toList) ∧ ∀ n ∈ g.nodes, Paired (g.label v n).toList)
      (g.dot v title).toList (g.dotTokens v title) := by
  have hfirst := readsIf_plain (t := "digraph CFG \x7b\n".toList) (by decide)
  have hstyle := readsIf_plain
    (t := "  node [shape=box, fontname=monospace, fontsize=10];\n".toList) (by decide)
  have hnodes := ReadsIf.flatMap fun n (_ : n ∈ g.nodes) => g.readsIf_node v n
  have hedges := ReadsIf.flatMap fun e (_ : e ∈ g.edges) => g.readsIf_edge e
  have hlast := readsIf_plain (t := "\x7d".toList) (by decide)
  rw [toList_dot]
  exact (((((hfirst.append (readsIf_title title)).append hstyle).append hnodes).append hedges).append
    hlast).congr (by simp)

/-- A description reads back with the title and every label in their strings, and nothing of them outside,
exactly if the title has no quote and no odd number of backslashes at its end, and no label has an odd
number of backslashes before one of its quotes or at its end. -/
theorem dot_reads_iff (g : Graph N) (v : Labelling N) (title : String) :
    scan (g.dot v title).toList = some (g.dotTokens v title) ↔
      ('"' ∉ title.toList ∧ Paired title.toList) ∧ ∀ n ∈ g.nodes, Paired (g.label v n).toList := by
  simpa [scan] using readsIf_dot g v title [] []

/-- A quote in the name of a method ends the title. A backslash before a quote of a label takes the
backslash that is put there. -/
theorem dot_loses_quotes :
    let say : Method := ⟨"say \"hi\"", [], [], []⟩
    let call : Stmt := ⟨0, .invoke none (.call "a\\\"b" [])⟩
    let m : Method := ⟨"m", [], [], [call]⟩
    (∃ g, say.graph = .ok g ∧
      scan (g.dot say.labelling say.name).toList ≠ some (g.dotTokens say.labelling say.name)) ∧
    ∃ g, m.graph = .ok g ∧
      scan (g.dot m.labelling m.name).toList ≠ some (g.dotTokens m.labelling m.name) := by
  intro say call m
  have hreads : ∀ (g : Graph Node) v title, scan (g.dot v title).toList = some (g.dotTokens v title) →
      '"' ∉ title.toList ∧ ∀ n ∈ g.nodes, Paired (g.label v n).toList := fun g v title h => by
    obtain ⟨⟨htitle, hlabels⟩, -⟩ := (readsIf_dot g v title [] []).1 (by simpa using h)
    exact ⟨htitle.1, hlabels⟩
  refine ⟨⟨_, rfl, fun h => ?_⟩, ⟨_, rfl, fun h => ?_⟩⟩
  · exact (hreads _ _ _ h).1 (by decide)
  · have hpaired := (hreads _ _ _ h).2 (.stmt call) (by decide)
    exact absurd (hpaired "0: a\\".toList (.inr (by decide +kernel))) (by decide +kernel)

end Graph
end Dataflow
