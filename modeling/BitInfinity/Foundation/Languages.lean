import Mathlib.Computability.RegularExpressions
import Mathlib.Tactic

/-!
# Words between separators

The denesting law of Kleene algebras turns nested lists of words, with a separator of its own on
each level, into one flat list.  A flat list of words over classes of letters is what a scanner
accepts that remembers only whether the last letter was a separator.
-/

namespace BitInfinity.Foundation

open Computability

universe u

/-! ## Denesting -/

section Kleene

variable {K : Type u} [KleeneAlgebra K]

theorem mul_denested_le (a b : K) : (a + b) * ((a∗ * b)∗ * a∗) ≤ (a∗ * b)∗ * a∗ := by
  have hunfold : (a∗ * b)∗ * a∗ = a∗ + a∗ * b * ((a∗ * b)∗ * a∗) := by
    calc (a∗ * b)∗ * a∗ = (1 + a∗ * b * (a∗ * b)∗) * a∗ := by rw [one_add_mul_kstar]
      _ = a∗ + a∗ * b * ((a∗ * b)∗ * a∗) := by rw [add_mul, one_mul, mul_assoc (a∗ * b)]
  have hleft : a * ((a∗ * b)∗ * a∗) ≤ (a∗ * b)∗ * a∗ := by
    calc a * ((a∗ * b)∗ * a∗) = a * a∗ + a * a∗ * (b * ((a∗ * b)∗ * a∗)) := by
          nth_rewrite 1 [hunfold]
          rw [mul_add, mul_assoc a∗ b, mul_assoc a a∗ (b * _)]
      _ ≤ a∗ + a∗ * (b * ((a∗ * b)∗ * a∗)) := by
          gcongr <;> exact mul_kstar_le_kstar
      _ = (a∗ * b)∗ * a∗ := by rw [← mul_assoc a∗ b, ← hunfold]
  have hright : b * ((a∗ * b)∗ * a∗) ≤ (a∗ * b)∗ * a∗ := by
    calc b * ((a∗ * b)∗ * a∗) = 1 * b * ((a∗ * b)∗ * a∗) := by rw [one_mul]
      _ ≤ a∗ * b * ((a∗ * b)∗ * a∗) := by gcongr; exact one_le_kstar
      _ ≤ (a∗ * b)∗ * a∗ := by
        rw [← mul_assoc]
        gcongr
        exact mul_kstar_le_kstar
  rw [add_mul]
  exact add_le hleft hright

theorem kstar_denest (a b : K) : (a∗ * b)∗ * a∗ = (a + b)∗ := by
  have ha : a∗ ≤ (a + b)∗ := kstar_mono (by simp)
  have hb : b ≤ (a + b)∗ := le_trans (by simp) (le_kstar : a + b ≤ (a + b)∗)
  refine le_antisymm (kstar_mul_le ha ?_) (kstar_le_of_mul_le_right ?_ (mul_denested_le a b))
  · calc a∗ * b * (a + b)∗ ≤ (a + b)∗ * (a + b)∗ * (a + b)∗ := by gcongr
      _ = (a + b)∗ := by rw [kstar_mul_kstar, kstar_mul_kstar]
  · calc (1 : K) = 1 * 1 := (one_mul 1).symm
      _ ≤ (a∗ * b)∗ * a∗ := by gcongr <;> exact one_le_kstar

def sepBy (w s : K) : K := (w * s)∗ * w

theorem sepBy_sepBy (w s t : K) : sepBy (sepBy w s) t = sepBy w (s + t) := by
  calc sepBy (sepBy w s) t = ((w * s)∗ * (w * t))∗ * (w * s)∗ * w := by
        simp only [sepBy, mul_assoc]
    _ = sepBy w (s + t) := by rw [kstar_denest, sepBy, mul_add]

theorem sepBy_eq (w s : K) : sepBy w s = w * (1 + s * sepBy w s) := by
  calc sepBy w s = (1 + w * s * (w * s)∗) * w := by rw [one_add_mul_kstar, sepBy]
    _ = w * (1 + s * sepBy w s) := by
      simp only [sepBy, add_mul, mul_add, one_mul, mul_one, mul_assoc]

end Kleene

/-! ## Classes of letters -/

section Letters

variable {α : Type u} {p : α → Prop} {L : Language α} {c : α} {cs : List α}

def letters (p : α → Prop) : Language α := {x | ∃ c, p c ∧ x = [c]}

theorem cons_mem_letters_mul : c :: cs ∈ letters p * L ↔ p c ∧ cs ∈ L := by
  rw [Language.mem_mul]
  constructor
  · rintro ⟨x, ⟨d, hd, rfl⟩, y, hy, heq⟩
    rw [List.singleton_append, List.cons.injEq] at heq
    exact ⟨heq.1 ▸ hd, heq.2 ▸ hy⟩
  · rintro ⟨hc, hcs⟩
    exact ⟨[c], ⟨c, hc, rfl⟩, cs, hcs, rfl⟩

theorem nil_notMem_letters_mul : [] ∉ letters p * L := by
  rintro ⟨x, ⟨d, -, rfl⟩, y, -, heq⟩
  simp at heq

theorem letters_or (p q : α → Prop) : letters (fun c => p c ∨ q c) = letters p + letters q := by
  apply Language.ext
  intro x
  constructor
  · rintro ⟨c, hc | hc, rfl⟩
    · exact .inl ⟨c, hc, rfl⟩
    · exact .inr ⟨c, hc, rfl⟩
  · rintro (⟨c, hc, rfl⟩ | ⟨c, hc, rfl⟩)
    · exact ⟨c, .inl hc, rfl⟩
    · exact ⟨c, .inr hc, rfl⟩

def oneOf (cs : List α) : RegularExpression α := cs.foldr (fun c r => .char c + r) 0

theorem matches_oneOf (cs : List α) : (oneOf cs).matches' = letters (· ∈ cs) := by
  induction cs with
  | nil =>
    apply Language.ext
    intro x
    constructor
    · intro hx
      exact absurd hx (Language.notMem_zero x)
    · rintro ⟨c, hc, -⟩
      exact absurd hc List.not_mem_nil
  | cons c cs ih =>
    have hchar : (RegularExpression.char c).matches' = letters (· = c) := by
      apply Language.ext
      intro x
      simp [letters]
      rfl
    have hrest : (oneOf (c :: cs)).matches' = (RegularExpression.char c).matches' +
        (oneOf cs).matches' := rfl
    rw [hrest, hchar, ih, ← letters_or]
    simp only [List.mem_cons]

/-- The letters of an expression have the property. -/
def OverLetters (p : α → Prop) : RegularExpression α → Prop
  | .zero => True
  | .epsilon => True
  | .char c => p c
  | .plus r r' => OverLetters p r ∧ OverLetters p r'
  | .comp r r' => OverLetters p r ∧ OverLetters p r'
  | .star r => OverLetters p r

theorem overLetters_oneOf {cs : List α} (h : ∀ c ∈ cs, p c) : OverLetters p (oneOf cs) := by
  induction cs with
  | nil => trivial
  | cons c cs ih => exact ⟨h c (by simp), ih fun d hd => h d (by simp [hd])⟩

theorem forall_of_matches {r : RegularExpression α} (h : OverLetters p r) {text : List α}
    (htext : text ∈ r.matches') : ∀ c ∈ text, p c := by
  induction r generalizing text with
  | zero => exact absurd htext (Language.notMem_zero text)
  | epsilon =>
    rw [(Language.mem_one text).mp htext]
    simp
  | char c =>
    rw [show text = [c] from htext]
    intro d hd
    rw [List.mem_singleton.mp hd]
    exact h
  | plus r r' ih ih' => exact htext.elim (ih h.1) (ih' h.2)
  | comp r r' ih ih' =>
    obtain ⟨x, hx, y, hy, rfl⟩ := Language.mem_mul.mp htext
    intro c hc
    exact (List.mem_append.mp hc).elim (ih h.1 hx c) (ih' h.2 hy c)
  | star r ih =>
    obtain ⟨_, rfl, hpieces⟩ := Language.mem_kstar.mp htext
    intro c hc
    obtain ⟨piece, hpiece, hc⟩ := List.mem_flatten.mp hc
    exact ih h (hpieces piece hpiece) c hc

end Letters

/-! ## What a scanner of words accepts -/

section Scan

variable {α : Type u} (p q : α → Prop) {c : α} {cs : List α}

def words : Language α := sepBy (letters p * (letters p)∗) (letters q)

def wordsTail : Language α := (letters p)∗ * (1 + letters q * words p q)

theorem words_eq : words p q = letters p * wordsTail p q := by
  rw [words, sepBy_eq, ← words, wordsTail, mul_assoc]

theorem wordsTail_eq : wordsTail p q = 1 + letters q * words p q + letters p * wordsTail p q := by
  calc wordsTail p q
      = (1 + letters p * (letters p)∗) * (1 + letters q * words p q) := by
        rw [one_add_mul_kstar, wordsTail]
    _ = 1 + letters q * words p q + letters p * wordsTail p q := by
        rw [add_mul, one_mul, mul_assoc, ← wordsTail]

theorem nil_notMem_words : [] ∉ words p q := by
  rw [words_eq]
  exact nil_notMem_letters_mul

theorem cons_mem_words : c :: cs ∈ words p q ↔ p c ∧ cs ∈ wordsTail p q := by
  rw [words_eq]
  exact cons_mem_letters_mul

theorem nil_mem_wordsTail : [] ∈ wordsTail p q := by
  rw [wordsTail_eq, Language.mem_add, Language.mem_add]
  exact .inl (.inl Language.nil_mem_one)

theorem cons_mem_wordsTail :
    c :: cs ∈ wordsTail p q ↔ q c ∧ cs ∈ words p q ∨ p c ∧ cs ∈ wordsTail p q := by
  rw [wordsTail_eq, Language.mem_add, Language.mem_add, cons_mem_letters_mul,
    cons_mem_letters_mul, ← wordsTail_eq]
  simp

variable {p q}

theorem forall_of_mem_words_or_tail (h : cs ∈ words p q ∨ cs ∈ wordsTail p q) :
    ∀ c ∈ cs, p c ∨ q c := by
  induction cs with
  | nil => simp
  | cons d cs ih =>
    have hsplit : (p d ∨ q d) ∧ (cs ∈ words p q ∨ cs ∈ wordsTail p q) := by
      rw [cons_mem_words, cons_mem_wordsTail] at h
      tauto
    intro c hc
    rcases List.mem_cons.mp hc with rfl | hc
    · exact hsplit.1
    · exact ih hsplit.2 c hc

theorem mem_words_of_append (hc : ¬ p c) {start : List α}
    (h : start ++ c :: cs ∈ words p q ∨ start ++ c :: cs ∈ wordsTail p q) : cs ∈ words p q := by
  induction start with
  | nil =>
    rw [List.nil_append, cons_mem_words, cons_mem_wordsTail] at h
    tauto
  | cons d start ih =>
    rw [List.cons_append, cons_mem_words, cons_mem_wordsTail] at h
    apply ih
    tauto

theorem mem_wordsTail_of_forall (h : ∀ c ∈ cs, p c) : cs ∈ wordsTail p q := by
  induction cs with
  | nil => exact nil_mem_wordsTail p q
  | cons c cs ih =>
    rw [cons_mem_wordsTail]
    exact .inr ⟨h c (by simp), ih fun d hd => h d (by simp [hd])⟩

theorem mem_words_of_forall (hne : cs ≠ []) (h : ∀ c ∈ cs, p c) : cs ∈ words p q := by
  cases cs with
  | nil => exact absurd rfl hne
  | cons c cs =>
    rw [cons_mem_words]
    exact ⟨h c (by simp), mem_wordsTail_of_forall fun d hd => h d (by simp [hd])⟩

end Scan

end BitInfinity.Foundation
