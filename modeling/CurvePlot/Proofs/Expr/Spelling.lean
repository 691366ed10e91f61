import CurvePlot.Expr.Eval
import CurvePlot.Proofs.Exact
import CurvePlot.Proofs.Expr.Parse
/-!
# Words spelled out

Letters that name nothing mean their product: `ax` is `a*x`. The product is made where
the word stands, which is deeper than a product is read, so a word and its letters with
stars between them (`Token.spelled`) are not always read alike: `1/ax` divides by the
whole product, `1/a*x` by its first letter.

What decides is whether the word stands loosely (`Loose`): not behind a slash or a caret
with only signs between, and not before a caret. Spelling a word out never makes a text
unreadable, and where the word stands loosely it does not change the value.

The proof is an induction on the derivation of the text with the word. In a phrase as
loose as a product the spelled word is again part of the phrase (`Kept`). A phrase that
holds together tighter may fall apart at the stars (`Opens`), and the product around it
takes in the pieces, grouping them to the left (`Derives.spell`).
-/

namespace CurvePlot

namespace Token

/-- The letters of a word, one by one, with stars between them. -/
def spelled (letters : List Char) : List Token :=
  (letters.map fun c => word [c]).intersperse star

/-- Whether the place behind a token divides or is an exponent, given whether the place
before the token does. A sign leaves that as it is. -/
def binds (bound : Bool) : Token → Bool
  | plus | minus => bound
  | slash | caret => true
  | _ => false

/-- Behind the first letter comes a star. -/
theorem spelled_cons (c z : Char) (m : List Char) :
    spelled (c :: (m ++ [z])) = word [c] :: star :: spelled (m ++ [z]) := by
  cases m <;> rfl

/-- A place that is loose behind some tokens is so whatever stands before them. -/
theorem foldl_binds_false {tokens : List Token} {bound : Bool}
    (h : tokens.foldl binds bound = false) : tokens.foldl binds false = false := by
  induction tokens generalizing bound with
  | nil => rfl
  | cons x tokens ih =>
    cases x with
    | plus | minus => exact ih h
    | _ => exact h

end Token

namespace Expr

open Token (spelled binds)

/-- **The same value,** as numbers are, at every point and for all values of the
parameters. -/
def Same (e e' : Expr) : Prop :=
  ∀ (env : Char → Exact) (x y : Exact), e.eval env x y = e'.eval env x y

/-- Where a word may be spelled out: no quotient and no power divides it. -/
structure Loose (before after : List Token) : Prop where
  /-- It does not stand behind a slash or a caret, also with signs between. -/
  left : before.foldl binds false = false
  /-- It does not stand before a caret. -/
  right : after.head? ≠ some .caret

namespace Same

variable {a a' b b' : Expr}

/-- Everything is the same as itself, -/
protected theorem refl (e : Expr) : Same e e := fun _ _ _ => rfl

/-- and along a row of equals. -/
protected theorem trans {e : Expr} (h : Same a b) (h' : Same b e) : Same a e :=
  fun env x y => (h env x y).trans (h' env x y)

/-- Equals may be negated, -/
protected theorem neg (h : Same a a') : Same (.neg a) (.neg a') := fun env x y => by
  rw [eval, eval, h]

/-- combined, -/
theorem binary (op : BinaryOp) (h : Same a a') (h' : Same b b') :
    Same (.binary op a b) (.binary op a' b') := fun env x y => by
  rw [eval, eval, h, h']

/-- compared, -/
theorem compare (op : Comparison) (h : Same a a') (h' : Same b b') :
    Same (.compare op a b) (.compare op a' b') := fun env x y => by
  rw [eval, eval, h, h']

/-- joined -/
theorem logical (op : Connective) (h : Same a a') (h' : Same b b') :
    Same (.logical op a b) (.logical op a' b') := fun env x y => by
  rw [eval, eval, h, h']

/-- and put into functions. -/
theorem call (f : Elementary) (h : Same a a') : Same (.call f a) (.call f a') :=
  fun env x y => by rw [eval, eval, h]

/-- Products may be grouped otherwise, -/
theorem mul_mul (a b e : Expr) : Same (.mul a (.mul b e)) (.mul (.mul a b) e) :=
  fun env x y => (Exact.product_assoc (a.eval env x y) (b.eval env x y) (e.eval env x y)).symm

/-- and a sign passes to the first factor. -/
theorem neg_mul (a b : Expr) : Same (.neg (.mul a b)) (.mul (.neg a) b) :=
  fun env x y => (Exact.neg_product (a.eval env x y) (b.eval env x y)).symm

end Same

/-! ### Products of letters -/

section Words

variable (t : Parameter.Table)

/-- An expression times the letters, one after the other. -/
def timesLetters (a : Expr) (letters : List Char) : Expr :=
  letters.foldl (fun a d => a.mul (ofWord t [d])) a

/-- What passes into the first factor of a product passes through a product of letters. -/
theorem same_timesLetters {g : Expr → Expr} (hg : ∀ a b, Same (g (a.mul b)) ((g a).mul b))
    (a : Expr) (letters : List Char) :
    Same (g (timesLetters t a letters)) (timesLetters t (g a) letters) := by
  -- by induction on the letters, the last of which is the outermost factor
  induction letters using List.reverseRecOn with
  | nil => exact .refl _
  | append_singleton letters d ih =>
    have hsplit (e : Expr) : timesLetters t e (letters ++ [d]) =
        (timesLetters t e letters).mul (ofWord t [d]) := List.foldl_append
    rw [hsplit, hsplit]
    exact (hg _ _).trans (ih.binary .mul (.refl _))

/-- A single letter that is no constant is read as a letter. -/
theorem ofWord_singleton {c : Char} (h : c ≠ 'e') : ofWord t [c] = ofLetter t c := by
  have hpi : [c] ≠ ['p', 'i'] := by simp
  have he : [c] ≠ ['e'] := by simpa using h
  rw [ofWord, if_neg hpi, if_neg he]
  rfl

/-- A word that names no constant is the product of its letters. -/
theorem ofWord_eq_timesLetters {c : Char} {letters : List Char} (hlen : letters ≠ [])
    (hpi : c :: letters ≠ ['p', 'i']) (he : 'e' ∉ c :: letters) :
    ofWord t (c :: letters) = timesLetters t (ofWord t [c]) letters := by
  -- neither the word nor one of its letters is a constant
  have hc : c ≠ 'e' := by
    rintro rfl
    exact he List.mem_cons_self
  have hbase : c :: letters ≠ ['e'] := by simp [hlen]
  have hletters : ∀ d ∈ letters, ofLetter t d = ofWord t [d] := by
    intro d hd
    refine (ofWord_singleton t ?_).symm
    rintro rfl
    exact he (List.mem_cons_of_mem c hd)
  rw [ofWord, if_neg hpi, if_neg hbase, ofWord_singleton t hc, List.map_cons]
  dsimp only
  rw [timesLetters, List.foldl_map]
  exact List.foldl_ext _ _ _ fun a d hd => by rw [hletters d hd]

end Words

section Derivations

variable {t : Parameter.Table} {u after : List Token} {a : Expr}

/-- A letter is a phrase by itself, also before a star. -/
theorem derives_letter (d : Char) (rest : List Token) :
    Derives t .atom [.word [d]] (.star :: rest) (ofWord t [d]) := .word [d] (by simp)

/-- **A product takes in the spelled letters behind it,** the last of them with what
belongs to it. -/
theorem Derives.spell {q : List Token} {z : Char} {b : Expr} (m : List Char)
    (hu : ∀ rest, Derives t .product u (.star :: rest) a)
    (hb : Derives t .signed (.word [z] :: q) after b) :
    Derives t .product (u ++ .star :: (spelled (m ++ [z]) ++ q)) after
      ((timesLetters t a m).mul b) := by
  -- by induction on the letters between: the product takes in one of them and goes on
  induction m generalizing u a with
  | nil => exact .mul (hu _) hb
  | cons d m ih =>
    have hnext : ∀ rest, Derives t .product (u ++ [.star, .word [d]]) (.star :: rest)
        (a.mul (ofWord t [d])) :=
      fun rest => .mul (hu _) (.ofPower (.ofAtom (derives_letter d rest)))
    have hrest := ih hnext
    rw [List.append_assoc] at hrest
    rw [List.cons_append, Token.spelled_cons]
    exact hrest

end Derivations

/-! ### What spelling a word out does to a phrase -/

section Spells

variable (t : Parameter.Table) (c : Char) (m : List Char) (z : Char)

/-- The phrase with the word spelled out is a phrase of the same kind, and has the same
value if the word stands loosely. -/
def Kept (p q after : List Token) (e : Expr) (k : Phrase) : Prop :=
  ∃ e', Derives t k (p ++ spelled (c :: (m ++ [z])) ++ q) after e' ∧
    (Loose p (q ++ after) → Same e e')

/-- The phrase with the word spelled out falls apart: up to the first letter it is a
phrase of the same kind, and from the last letter on it is a signed power. Then what
divides the phrase divides the word. -/
def Opens (p q after : List Token) (e : Expr) (k : Phrase) : Prop :=
  ∃ a b, (∀ rest, Derives t k (p ++ [.word [c]]) (.star :: rest) a) ∧
    Derives t .signed (.word [z] :: q) after b ∧ p.foldl binds true = true ∧
    (Loose p (q ++ after) → Same e ((timesLetters t a m).mul b))

/-- What spelling the word out does to a phrase of each kind. -/
def Spells (p q after : List Token) (e : Expr) : Phrase → Prop
  | .links last => ∃ last' e',
    Derives t (.links last') (p ++ spelled (c :: (m ++ [z])) ++ q) after e' ∧
      (Loose p (q ++ after) → Same last last' ∧ Same e e')
  | .signed => Opens t c m z p q after e .signed ∨ Kept t c m z p q after e .signed
  | .power => Opens t c m z p q after e .power ∨ Kept t c m z p q after e .power
  | .atom => (p = [] ∧ q = [] ∧ e = ofWord t (c :: (m ++ [z]))) ∨ Kept t c m z p q after e .atom
  | k => Kept t c m z p q after e k

end Spells

section Rules

variable {t : Parameter.Table} {c : Char} {m : List Char} {z : Char} {k k' : Phrase}
  {p q r u v after : List Token} {x : Token} {a b e : Expr} {g : Expr → Expr}

/-- What is loose is so for the tokens next to it. -/
theorem Loose.of_append {w : List Token} (h : Loose (w ++ p) after) : Loose p after := by
  refine ⟨?_, h.right⟩
  have hleft : p.foldl binds (w.foldl binds false) = false :=
    List.foldl_append.symm.trans h.left
  exact Token.foldl_binds_false hleft

/-- What divides a phrase divides the word in it, if the phrase falls apart. -/
theorem Opens.not_loose (h : Opens t c m z p q after e k) (hx : x = .slash ∨ x = .caret)
    {rest : List Token} : ¬ Loose (u ++ x :: p) rest := by
  -- between the operator and the word there are only signs, so what divides goes on up to the word
  obtain ⟨a, b, -, -, hbound, -⟩ := h
  intro hloose
  have hleft : p.foldl binds (binds (u.foldl binds false) x) = false :=
    List.foldl_append.symm.trans hloose.left
  rcases hx with rfl | rfl
  · exact Bool.false_ne_true (hleft.symm.trans hbound)
  · exact Bool.false_ne_true (hleft.symm.trans hbound)

/-- A phrase around a kept one is kept. -/
theorem Kept.map (h : Kept t c m z p q after e k)
    (rule : ∀ u a, Derives t k u after a → Derives t k' u after (g a))
    (hg : ∀ a b, Same a b → Same (g a) (g b)) : Kept t c m z p q after (g e) k' := by
  obtain ⟨e', he, hsame⟩ := h
  exact ⟨g e', rule _ e' he, fun hloose => hg e e' (hsame hloose)⟩

/-- The word stands in the left side of an operator. -/
theorem Kept.left (h : Kept t c m z p r (x :: v ++ after) a k)
    (rule : ∀ u a, Derives t k u (x :: v ++ after) a → Derives t k' (u ++ x :: v) after (g a))
    (hg : ∀ a b, Same a b → Same (g a) (g b)) :
    Kept t c m z p (r ++ x :: v) after (g a) k' := by
  obtain ⟨a', ha, hsame⟩ := h
  refine ⟨g a', ?_, fun hloose => hg a a' (hsame ?_)⟩
  · rw [← List.append_assoc]
    exact rule _ a' ha
  · rwa [List.append_assoc] at hloose

/-- The word stands in the right side of an operator. -/
theorem Kept.right (h : Kept t c m z p q after b k)
    (rule : ∀ v b, Derives t k v after b → Derives t k' (u ++ x :: v) after (g b))
    (hg : ∀ a b, Same a b → Same (g a) (g b)) :
    Kept t c m z (u ++ x :: p) q after (g b) k' := by
  obtain ⟨b', hb, hsame⟩ := h
  refine ⟨g b', ?_, fun hloose => hg b b' (hsame ?_)⟩
  · rw [List.append_assoc, List.append_assoc, List.cons_append, ← List.append_assoc]
    exact rule _ b' hb
  · rw [← List.singleton_append, ← List.append_assoc] at hloose
    exact hloose.of_append

/-- The word stands on either side of an operator that holds both sides alike. -/
theorem Kept.sides {k₁ k₂ : Phrase} {f : Expr → Expr → Expr}
    (hu : u ++ x :: v = p ++ .word (c :: (m ++ [z])) :: q) (hx : ∀ letters, x ≠ .word letters)
    (hcall : (q ++ after).head? ≠ some .leftParen)
    (ha : Derives t k₁ u (x :: v ++ after) a) (hb : Derives t k₂ v after b)
    (hl : ∀ {p q}, u = p ++ .word (c :: (m ++ [z])) :: q →
      (q ++ (x :: v ++ after)).head? ≠ some .leftParen → Kept t c m z p q (x :: v ++ after) a k₁)
    (hr : ∀ {p q}, v = p ++ .word (c :: (m ++ [z])) :: q →
      (q ++ after).head? ≠ some .leftParen → Kept t c m z p q after b k₂)
    (rule : ∀ {u v a b}, Derives t k₁ u (x :: v ++ after) a → Derives t k₂ v after b →
      Derives t k' (u ++ x :: v) after (f a b))
    (hf : ∀ {a a' b b'}, Same a a' → Same b b' → Same (f a b) (f a' b')) :
    Kept t c m z p q after (f a b) k' := by
  -- the word is one of the tokens before the operator, or one of those behind it
  rcases append_cons_cases hu with ⟨r, hur, rfl⟩ | ⟨-, hword, -⟩ | ⟨r, rfl, hvr⟩
  · rw [List.append_assoc] at hcall
    exact Kept.left (g := (f · b)) (hl hur hcall) (fun _ _ h => rule h hb)
      fun _ _ h => hf h (.refl b)
  · exact absurd hword (hx _)
  · exact Kept.right (g := (f a ·)) (hr hvr hcall) (fun _ _ h => rule ha.behind h)
      fun _ _ h => hf (.refl a) h

/-- The word stands on either side of a comparison in a chain, with the side that stood
last before. -/
theorem spells_linked {k : Expr → Phrase} {l : Expr} {f : Expr → Expr → Expr → Expr}
    (hu : u ++ x :: v = p ++ .word (c :: (m ++ [z])) :: q) (hx : ∀ letters, x ≠ .word letters)
    (hcall : (q ++ after).head? ≠ some .leftParen)
    (ha : Derives t (k l) u (x :: v ++ after) a) (hb : Derives t .sum v after b)
    (hl : ∀ {p q}, u = p ++ .word (c :: (m ++ [z])) :: q →
      (q ++ (x :: v ++ after)).head? ≠ some .leftParen →
        ∃ l' a', Derives t (k l') (p ++ spelled (c :: (m ++ [z])) ++ q) (x :: v ++ after) a' ∧
          (Loose p (q ++ (x :: v ++ after)) → Same l l' ∧ Same a a'))
    (hr : ∀ {p q}, v = p ++ .word (c :: (m ++ [z])) :: q →
      (q ++ after).head? ≠ some .leftParen → Kept t c m z p q after b .sum)
    (rule : ∀ {l u v a b}, Derives t (k l) u (x :: v ++ after) a → Derives t .sum v after b →
      Derives t (.links b) (u ++ x :: v) after (f l a b))
    (hf : ∀ {l l' a a' b b'}, Same l l' → Same a a' → Same b b' →
      Same (f l a b) (f l' a' b')) :
    Spells t c m z p q after (f l a b) (.links b) := by
  rcases append_cons_cases hu with ⟨r, hur, rfl⟩ | ⟨-, hword, -⟩ | ⟨r, rfl, hvr⟩
  · -- the word stands in one of the sides before, and both go over
    rw [List.append_assoc] at hcall
    obtain ⟨l', a', ha', hsame⟩ := hl hur hcall
    refine ⟨b, f l' a' b, ?_, fun hloose => ⟨.refl b, ?_⟩⟩
    · rw [← List.append_assoc]
      exact rule ha' hb
    · rw [List.append_assoc] at hloose
      obtain ⟨hlast, ha''⟩ := hsame hloose
      exact hf hlast ha'' (.refl b)
  · exact absurd hword (hx _)
  · -- the word stands in the new side, which is the last one now
    obtain ⟨b', hb', hsame⟩ := hr hvr hcall
    refine ⟨b', f l a b', ?_, fun hloose => ?_⟩
    · rw [List.append_assoc, List.append_assoc, List.cons_append, ← List.append_assoc]
      exact rule ha.behind hb'
    · rw [List.append_cons] at hloose
      have hb'' : Same b b' := hsame hloose.of_append
      exact ⟨hb'', hf (.refl l) (.refl a) hb''⟩

/-- The word stands in parentheses. -/
theorem Kept.inside {w : List Token} (h : Kept t c m z p r (.rightParen :: after) a k)
    (rule : ∀ u a, Derives t k u (.rightParen :: after) a →
      Derives t k' (w ++ u ++ [.rightParen]) after (g a))
    (hg : ∀ a b, Same a b → Same (g a) (g b)) :
    Kept t c m z (w ++ p) (r ++ [.rightParen]) after (g a) k' := by
  obtain ⟨a', ha, hsame⟩ := h
  refine ⟨g a', ?_, fun hloose => hg a a' (hsame ?_)⟩
  · have hrule := rule _ a' ha
    rwa [← List.append_assoc, ← List.append_assoc, List.append_assoc _ r] at hrule
  · rw [List.append_assoc] at hloose
    exact hloose.of_append

/-- **A product takes in what falls apart,** wherever a first letter may stand for the
signed power that the word was in. -/
theorem Opens.kept {w : List Token} (h : Opens t c m z p q after b .signed)
    (rule : ∀ rest a, Derives t .signed (p ++ [.word [c]]) (.star :: rest) a →
      Derives t .product (w ++ (p ++ [.word [c]])) (.star :: rest) (g a))
    (hcongr : ∀ a b, Same a b → Same (g a) (g b))
    (hg : Loose (w ++ p) (q ++ after) → ∀ a b, Same (g (a.mul b)) ((g a).mul b)) :
    Kept t c m z (w ++ p) q after (g b) .product := by
  obtain ⟨first, last, hfirst, hlast, -, hsame⟩ := h
  refine ⟨(timesLetters t (g first) m).mul last, ?_, fun hloose => ?_⟩
  · -- up to the first letter the rule has made a product, which takes in the others
    have hspell := Derives.spell m (fun rest => rule rest first (hfirst rest)) hlast
    rw [Token.spelled_cons]
    simpa using hspell
  · -- the step passes into the first factor, and then the letters are multiplied on
    have hopen : Same (g b) (g ((timesLetters t first m).mul last)) :=
      hcongr _ _ (hsame hloose.of_append)
    have hinto : Same (g (timesLetters t first m)) (timesLetters t (g first) m) :=
      same_timesLetters t (hg hloose) first m
    exact (hopen.trans (hg hloose _ _)).trans (hinto.binary .mul (.refl _))

/-! ### One rule at a time -/

/-- A signed power that falls apart is taken in by the product that it is. -/
theorem spells_ofSigned (ha : Spells t c m z p q after a .signed) :
    Spells t c m z p q after a .product := by
  rcases ha with hopens | hkept
  · exact Opens.kept (g := id) hopens (w := []) (fun _ _ h => .ofSigned h) (fun _ _ h => h)
      fun _ _ _ => .refl _
  · exact Kept.map (g := id) hkept (fun _ _ h => .ofSigned h) fun _ _ h => h

/-- A plus in front divides nothing, -/
theorem spells_plus (ha : Spells t c m z p q after a .signed) :
    Spells t c m z (.plus :: p) q after a .signed := by
  rcases ha with ⟨first, last, hfirst, hlast, hbound, hsame⟩ | ⟨a', ha', hsame⟩
  · exact .inl ⟨first, last, fun rest => .plus (hfirst rest), hlast, hbound,
      fun hloose => hsame ⟨hloose.left, hloose.right⟩⟩
  · exact .inr ⟨a', .plus ha', fun hloose => hsame ⟨hloose.left, hloose.right⟩⟩

/-- and neither does a minus. -/
theorem spells_minus (ha : Spells t c m z p q after a .signed) :
    Spells t c m z (.minus :: p) q after (.neg a) .signed := by
  rcases ha with ⟨first, last, hfirst, hlast, hbound, hsame⟩ | ⟨a', ha', hsame⟩
  · refine .inl ⟨.neg first, last, fun rest => .minus (hfirst rest), hlast, hbound, ?_⟩
    intro hloose
    -- the sign passes from the product to its first factor
    have hopen : Same (.neg a) (.neg ((timesLetters t first m).mul last)) :=
      (hsame ⟨hloose.left, hloose.right⟩).neg
    have hinto : Same (.neg (timesLetters t first m)) (timesLetters t (.neg first) m) :=
      same_timesLetters t Same.neg_mul first m
    exact (hopen.trans (.neg_mul _ _)).trans (hinto.binary .mul (.refl _))
  · -- the power is kept, and it is negated before and after
    exact .inr ⟨.neg a', .minus ha', fun hloose => (hsame ⟨hloose.left, hloose.right⟩).neg⟩

/-- A power that falls apart does so as a signed one. -/
theorem spells_ofPower (ha : Spells t c m z p q after a .power) :
    Spells t c m z p q after a .signed := by
  rcases ha with ⟨first, last, hfirst, hrest⟩ | hkept
  · exact .inl ⟨first, last, fun rest => .ofPower (hfirst rest), hrest⟩
  · exact .inr (Kept.map (g := id) hkept (fun _ _ h => .ofPower h) fun _ _ h => h)

section Letters

variable (hw : ofWord t (c :: (m ++ [z])) =
  (timesLetters t (ofWord t [c]) m).mul (ofWord t [z]))

include hw

theorem spells_ofAtom (hcall : (q ++ after).head? ≠ some .leftParen)
    (ha : Spells t c m z p q after a .atom) : Spells t c m z p q after a .power := by
  rcases ha with ⟨rfl, rfl, rfl⟩ | hkept
  · refine .inl ⟨ofWord t [c], ofWord t [z], fun rest => .ofAtom (derives_letter c rest),
      .ofPower (.ofAtom (.word [z] hcall)), rfl, fun _ => ?_⟩
    rw [hw]
    exact .refl _
  · exact .inr (Kept.map (g := id) hkept (fun _ _ h => .ofAtom h) fun _ _ h => h)

end Letters

/-- A word before a caret: the power is one of its last letter. -/
theorem spells_pow_left (hb : Derives t .signed v after b)
    (ha : Spells t c m z p r (.caret :: v ++ after) a .atom) :
    Spells t c m z p (r ++ .caret :: v) after (.binary .pow a b) .power := by
  rcases ha with ⟨rfl, rfl, rfl⟩ | hkept
  · -- the word is the base by itself, and only its last letter is raised
    refine .inl ⟨ofWord t [c], .binary .pow (ofWord t [z]) b,
      fun rest => .ofAtom (derives_letter c rest), ?_, rfl, fun hloose => absurd rfl hloose.right⟩
    exact .ofPower (.pow (.word [z] (by simp)) hb)
  · exact .inr (Kept.left (g := (.binary .pow · b)) hkept (fun _ _ h => .pow h hb)
      fun _ _ h => h.binary .pow (.refl b))

/-- A word in an exponent: the exponent ends with its first letter. -/
theorem spells_pow_right (ha : Derives t .atom u (.caret :: v ++ after) a)
    (hb : Spells t c m z p q after b .signed) :
    Spells t c m z (u ++ .caret :: p) q after (.binary .pow a b) .power := by
  rcases hb with hopens | hkept
  · have hnot : ∀ {rest}, ¬ Loose (u ++ .caret :: p) rest := hopens.not_loose (.inr rfl)
    obtain ⟨first, last, hfirst, hlast, hbound, -⟩ := hopens
    refine .inl ⟨.binary .pow a first, last, fun rest => ?_, hlast, ?_, fun h => absurd h hnot⟩
    · -- the exponent ends where the first letter does
      rw [List.append_assoc]
      exact .pow ha.behind (hfirst rest)
    · rw [List.foldl_append]
      exact hbound
  · exact .inr (Kept.right (g := (.binary .pow a ·)) hkept (fun _ _ h => .pow ha.behind h)
      fun _ _ h => .binary .pow (.refl a) h)

/-- A word in a factor behind a star: the product takes in its letters. -/
theorem spells_mul_right (ha : Derives t .product u (.star :: v ++ after) a)
    (hb : Spells t c m z p q after b .signed) :
    Spells t c m z (u ++ .star :: p) q after (.binary .mul a b) .product := by
  rcases hb with hopens | hkept
  · -- the factor falls apart, and its pieces are multiplied like the others
    rw [List.append_cons]
    refine Opens.kept (g := (.binary .mul a ·)) hopens ?_ (fun _ _ h => .binary .mul (.refl a) h)
      fun _ => Same.mul_mul a
    intro rest first h
    rw [← List.append_cons]
    exact .mul ha.behind h
  · exact Kept.right (g := (.binary .mul a ·)) hkept (fun _ _ h => .mul ha.behind h)
      fun _ _ h => .binary .mul (.refl a) h

/-- A word behind a slash: only its first letter divides. -/
theorem spells_div_right (ha : Derives t .product u (.slash :: v ++ after) a)
    (hb : Spells t c m z p q after b .signed) :
    Spells t c m z (u ++ .slash :: p) q after (.binary .div a b) .product := by
  rcases hb with hopens | hkept
  · -- nothing is claimed of the value, since the word does not stand loosely
    have hnot : ∀ {rest}, ¬ Loose (u ++ .slash :: p) rest := hopens.not_loose (.inl rfl)
    rw [List.append_cons] at hnot ⊢
    refine Opens.kept (g := (.binary .div a ·)) hopens ?_ (fun _ _ h => .binary .div (.refl a) h)
      fun hloose => absurd hloose hnot
    intro rest first h
    rw [← List.append_cons]
    exact .div ha.behind h
  · exact Kept.right (g := (.binary .div a ·)) hkept (fun _ _ h => .div ha.behind h)
      fun _ _ h => .binary .div (.refl a) h

/-- A word in a factor that stands behind the others without a sign. -/
theorem spells_juxtapose_right (hx : beginsFactor x = true)
    (hp : p ++ .word (c :: (m ++ [z])) :: q = x :: v)
    (ha : Derives t .product u (x :: v ++ after) a)
    (hb : Spells t c m z p q after b .signed) :
    Spells t c m z (u ++ p) q after (.binary .mul a b) .product := by
  -- the factor begins with the same token, or with the first letter of the word
  obtain ⟨y, w, hfactor, hy, hparen⟩ : ∃ y w, p ++ [.word [c]] = y :: w ∧ beginsFactor y = true ∧
      (y = .leftParen → x = .leftParen) := by
    cases p with
    | nil => exact ⟨_, _, rfl, rfl, nofun⟩
    | cons y p =>
      obtain ⟨rfl, -⟩ := List.cons.inj hp
      exact ⟨y, p ++ [.word [c]], rfl, hx, id⟩
  have hfront (rest : List Token) : Derives t .product u (y :: rest) a := by
    refine ha.congr_after fun hhead => ?_
    exact congrArg some (hparen (Option.some.inj hhead))
  rcases hb with hopens | ⟨b', hb', hsame⟩
  · -- the first piece stands where the factor stood, and the product takes in the others
    refine Opens.kept (g := (.binary .mul a ·)) hopens ?_ (fun _ _ h => .binary .mul (.refl a) h)
      fun _ => Same.mul_mul a
    intro rest first h
    rw [hfactor] at h ⊢
    exact .juxtapose (hfront _) hy h
  · -- the factor is kept, and it begins with the same token as before
    refine ⟨.binary .mul a b', ?_, fun hloose => .binary .mul (.refl a) (hsame hloose.of_append)⟩
    have hspelled : p ++ spelled (c :: (m ++ [z])) ++ q =
        y :: (w ++ .star :: (spelled (m ++ [z]) ++ q)) := by
      rw [Token.spelled_cons, ← List.cons_append, ← hfactor]
      simp
    rw [List.append_assoc, List.append_assoc, ← List.append_assoc p]
    rw [hspelled] at hb' ⊢
    exact .juxtapose (hfront _) hy hb'

/-! ### The whole grammar -/

/-- **Spelling a word out in a phrase,** whatever the phrase is. -/
theorem Derives.spells (hw : ofWord t (c :: (m ++ [z])) =
      (timesLetters t (ofWord t [c]) m).mul (ofWord t [z]))
    (h : Derives t k u after e) (hu : u = p ++ .word (c :: (m ++ [z])) :: q)
    (hcall : (q ++ after).head? ≠ some .leftParen) : Spells t c m z p q after e k := by
  induction h generalizing p q with
  | ofChain _ ih => exact Kept.map (g := id) (ih hu hcall) (fun _ _ h => .ofChain h) fun _ _ h => h
  | join op ha hb iha ihb =>
    exact Kept.sides (f := .logical op) hu nofun hcall ha hb iha ihb (.join op) (.logical op)
  | ofSum _ ih => exact Kept.map (g := id) (ih hu hcall) (fun _ _ h => .ofSum h) fun _ _ h => h
  | ofLinks _ ih =>
    obtain ⟨last, a, ha, hsame⟩ := ih hu hcall
    exact ⟨a, .ofLinks ha, fun hloose => (hsame hloose).2⟩
  | @link u v after a b op ha hb iha ihb =>
    -- no side stood last before, so any will do
    refine spells_linked (k := fun _ => .sum) (l := b) (f := fun _ a b => .compare op a b)
      hu nofun hcall ha hb (fun hur hparen => ?_) ihb (.link op) fun _ ha hb => ha.compare op hb
    obtain ⟨a', ha', hsame⟩ := iha hur hparen
    exact ⟨b, a', ha', fun hloose => ⟨.refl b, hsame hloose⟩⟩
  | @moreLinks u v after last a b op ha hb iha ihb =>
    exact spells_linked (k := .links) (f := fun last a b => .logical .and a (.compare op last b))
      hu nofun hcall ha hb iha ihb (.moreLinks op)
      fun hlast ha hb => ha.logical .and (hlast.compare op hb)
  | ofProduct _ ih =>
    exact Kept.map (g := id) (ih hu hcall) (fun _ _ h => .ofProduct h) fun _ _ h => h
  | add ha hb iha ihb =>
    exact Kept.sides (f := .binary .add) hu nofun hcall ha hb iha ihb .add (.binary .add)
  | sub ha hb iha ihb =>
    exact Kept.sides (f := .binary .sub) hu nofun hcall ha hb iha ihb .sub (.binary .sub)
  | ofSigned _ ih => exact spells_ofSigned (ih hu hcall)
  | @mul u v after a b ha hb iha ihb =>
    -- the word is in the product before the star, or in the factor behind it
    rcases append_cons_cases hu with ⟨r, hur, rfl⟩ | ⟨-, hop, -⟩ | ⟨r, rfl, hvr⟩
    · rw [List.append_assoc] at hcall
      exact Kept.left (g := (.binary .mul · b)) (iha hur hcall) (fun _ _ h => .mul h hb)
        fun _ _ h => h.binary .mul (.refl b)
    · cases hop
    · exact spells_mul_right ha (ihb hvr hcall)
  | @div u v after a b ha hb iha ihb =>
    rcases append_cons_cases hu with ⟨r, hur, rfl⟩ | ⟨-, hop, -⟩ | ⟨r, rfl, hvr⟩
    · rw [List.append_assoc] at hcall
      exact Kept.left (g := (.binary .div · b)) (iha hur hcall) (fun _ _ h => .div h hb)
        fun _ _ h => h.binary .div (.refl b)
    · cases hop
    · exact spells_div_right ha (ihb hvr hcall)
  | @juxtapose u x v after a b ha hx hb iha ihb =>
    rcases append_cons_cases hu with ⟨r, hur, rfl⟩ | ⟨rfl, rfl, rfl⟩ | ⟨r, rfl, hvr⟩
    · rw [List.append_assoc] at hcall
      exact Kept.left (g := (.binary .mul · b)) (iha hur hcall) (fun _ _ h => .juxtapose h hx hb)
        fun _ _ h => h.binary .mul (.refl b)
    · -- the word is the first token of the factor
      have hspells := spells_juxtapose_right (p := []) hx rfl ha (ihb rfl hcall)
      rwa [List.append_nil] at hspells
    · have hfactor : x :: v = (x :: r) ++ .word (c :: (m ++ [z])) :: q := by
        rw [hvr, List.cons_append]
      exact spells_juxtapose_right hx hfactor.symm ha (ihb hfactor hcall)
  | plus _ ih =>
    obtain ⟨p, rfl, hrest⟩ := exists_of_cons hu nofun
    exact spells_plus (ih hrest hcall)
  | minus _ ih =>
    obtain ⟨p, rfl, hrest⟩ := exists_of_cons hu nofun
    exact spells_minus (ih hrest hcall)
  | ofPower _ ih => exact spells_ofPower (ih hu hcall)
  | ofAtom _ ih => exact spells_ofAtom hw hcall (ih hu hcall)
  | @pow u v after a b ha hb iha ihb =>
    rcases append_cons_cases hu with ⟨r, hur, rfl⟩ | ⟨-, hop, -⟩ | ⟨r, rfl, hvr⟩
    · rw [List.append_assoc] at hcall
      exact spells_pow_left hb (iha hur hcall)
    · cases hop
    · exact spells_pow_right ha (ihb hvr hcall)
  | number v =>
    obtain ⟨_, -, hnil⟩ := exists_of_cons hu nofun
    simp at hnil
  | pi =>
    obtain ⟨_, -, hnil⟩ := exists_of_cons hu nofun
    simp at hnil
  | parens ha ih =>
    rcases append_cons_cases hu with ⟨r, hur, rfl⟩ | ⟨-, hparen, -⟩ | ⟨r, -, hnil⟩
    · obtain ⟨p, rfl, hrest⟩ := exists_of_cons hur nofun
      rw [List.append_assoc] at hcall
      exact .inr (Kept.inside (w := [.leftParen]) (g := id) (ih hrest hcall)
        (fun _ _ h => .parens h) fun _ _ h => h)
    · cases hparen
    · simp at hnil
  | @call letters u after f a hf ha ih =>
    rcases append_cons_cases hu with ⟨r, hur, rfl⟩ | ⟨-, hparen, -⟩ | ⟨r, -, hnil⟩
    · -- the name of a function is followed by a parenthesis, so it is not the word
      cases p with
      | nil =>
        obtain ⟨-, rfl⟩ := List.cons.inj hur
        exact absurd rfl hcall
      | cons x p =>
        obtain ⟨rfl, hbehind⟩ := List.cons.inj hur
        obtain ⟨p, rfl, hrest⟩ := exists_of_cons hbehind nofun
        rw [List.append_assoc] at hcall
        exact .inr (Kept.inside (w := [.word letters, .leftParen]) (g := .call f)
          (ih hrest hcall) (fun _ _ h => .call hf h) fun _ _ h => h.call f)
    · cases hparen
    · simp at hnil
  | word letters h =>
    cases p with
    | nil =>
      obtain ⟨hword, rfl⟩ := List.cons.inj hu
      exact .inl ⟨rfl, rfl, congrArg (ofWord t) (Token.word.inj hword)⟩
    | cons x p => simp at hu

end Rules

/-! ### Words anywhere in a text -/

/-- **A word may be spelled out where it stands loosely.** Take a text that can be read,
and in it a word of two letters or more that is no constant, holds no `e` and calls
nothing. With stars between the letters of the word the text can still be read, wherever
the word stands; and if it stands loosely, the text means the same function. -/
theorem parse_spelled (t : Parameter.Table) (ts ts' : List Placed) (before after : List Token)
    (letters : List Char) (e : Expr) (hts : ts.map Prod.fst = before ++ .word letters :: after)
    (hts' : ts'.map Prod.fst = before ++ spelled letters ++ after)
    (hlen : 2 ≤ letters.length) (hpi : letters ≠ ['p', 'i']) (hbase : 'e' ∉ letters)
    (hcall : after.head? ≠ some .leftParen) (hread : parse t ts = .ok e) :
    ∃ e', parse t ts' = .ok e' ∧ (Loose before after → Same e e') := by
  obtain ⟨c, m, z, rfl⟩ : ∃ c m z, letters = c :: (m ++ [z]) := by
    cases letters with
    | nil => simp at hlen
    | cons c rest =>
      have hrest : rest ≠ [] := by
        rintro rfl
        simp at hlen
      exact ⟨c, rest.dropLast, rest.getLast hrest, by rw [List.dropLast_append_getLast]⟩
  have hw : ofWord t (c :: (m ++ [z])) =
      (timesLetters t (ofWord t [c]) m).mul (ofWord t [z]) := by
    rw [ofWord_eq_timesLetters t (by simp) hpi hbase, timesLetters, List.foldl_append]
    rfl
  have hderives : Derives t .conditions (before ++ .word (c :: (m ++ [z])) :: after) [] e := by
    rw [← hts]
    exact (parse_eq_ok_iff t ts e).mp hread
  have hnil : (after ++ []).head? ≠ some .leftParen := by rwa [List.append_nil]
  obtain ⟨e', he', hsame⟩ := hderives.spells hw rfl hnil
  rw [List.append_nil] at hsame
  refine ⟨e', (parse_eq_ok_iff t ts' e').mpr ?_, hsame⟩
  rw [hts']
  exact he'

/-- In a sum the word stands loosely: `2+ax` and `2+a*x` mean the same. -/
theorem parse_spelled_summand :
    let t := Parameter.Table.empty.register ['a']
    ∃ e', parse t [(.number 2.0, 0), (.plus, 1), (.word ['a'], 2), (.star, 3), (.word ['x'], 4)] =
      .ok e' ∧ Same (.binary .add (.constant 2.0) (ofWord t ['a', 'x'])) e' := by
  intro t
  have hread : parse t [(.number 2.0, 0), (.plus, 1), (.word ['a', 'x'], 2)] =
      .ok (.binary .add (.constant 2.0) (ofWord t ['a', 'x'])) := by
    have hnumber : Derives t .sum [.number 2.0] [.plus, .word ['a', 'x']] (.constant 2.0) :=
      .ofProduct (.ofSigned (.ofPower (.ofAtom (.number 2.0))))
    have hword : Derives t .product [.word ['a', 'x']] [] (ofWord t ['a', 'x']) :=
      .ofSigned (.ofPower (.ofAtom (.word ['a', 'x'] (by decide))))
    exact (parse_eq_ok_iff t _ _).mpr (.ofChain (.ofSum (hnumber.add hword)))
  obtain ⟨e', he', hsame⟩ := parse_spelled t _
    [(.number 2.0, 0), (.plus, 1), (.word ['a'], 2), (.star, 3), (.word ['x'], 4)]
    [.number 2.0, .plus] [] ['a', 'x'] _ rfl rfl (by decide) (by decide) (by decide) (by decide)
    hread
  exact ⟨e', he', hsame ⟨rfl, by decide⟩⟩

/-- **Before a caret the word does not stand loosely.** With `3` for `a`, at `2`, the text
`ax^2` has the value `36`, and `a*x^2` has the value `12`. -/
theorem parse_spelled_square :
    let t := Parameter.Table.empty.register ['a']
    let env : Char → Exact := fun _ => .number 3
    ∃ e e', parse t [(.word ['a', 'x'], 0), (.caret, 2), (.number 2.0, 3)] = .ok e ∧
      parse t [(.word ['a'], 0), (.star, 1), (.word ['x'], 2), (.caret, 3), (.number 2.0, 4)] =
        .ok e' ∧
      e.eval env (.number 2) (.number 0) = .number 36 ∧
      e'.eval env (.number 2) (.number 0) = .number 12 := by
  intro t env
  have htwo : Exact.ofFloat 2.0 = .number 2 := by
    have hunpack : (2.0 : Float).toModel.unpack = .finite .positive (2 ^ 52) (-51) (by decide) :=
      rfl
    rw [Exact.ofFloat_eq hunpack]
    norm_num [Float.Model.UnpackedFloat.Sign.apply]
  have hsquare (r : ℝ) (hr : 0 < r) : Exact.power r 2 = .number (r ^ 2) := by
    rw [Exact.power_of_pos hr, Real.rpow_two]
  have hexponent : Derives t .signed [.number 2.0] [] (.constant 2.0) :=
    .ofPower (.ofAtom (.number 2.0))
  refine ⟨.binary .pow (.mul (.parameter 'a') .x) (.constant 2.0),
    .mul (.parameter 'a') (.binary .pow .x (.constant 2.0)), ?_, ?_, ?_, ?_⟩
  · have hbase : Derives t .atom [.word ['a', 'x']] [.caret, .number 2.0]
        (.mul (.parameter 'a') .x) := .word ['a', 'x'] (by decide)
    have hpower := hbase.pow hexponent
    exact (parse_eq_ok_iff t _ _).mpr
      (.ofChain (.ofSum (.ofProduct (.ofSigned (.ofPower hpower)))))
  · have hbase : Derives t .atom [.word ['x']] [.caret, .number 2.0] .x := .word ['x'] (by decide)
    have hpower := hbase.pow hexponent
    have hfirst : Derives t .product [.word ['a']] [.star, .word ['x'], .caret, .number 2.0]
        (.parameter 'a') := .ofSigned (.ofPower (.ofAtom (.word ['a'] (by decide))))
    have hproduct := hfirst.mul (.ofPower hpower)
    exact (parse_eq_ok_iff t _ _).mpr (.ofChain (.ofSum (.ofProduct hproduct)))
  · show Scalar.pow (Exact.number 3 * Exact.number 2) (Exact.ofFloat 2.0) = _
    rw [htwo, Exact.number_mul, Exact.pow_number, hsquare _ (by norm_num)]
    norm_num
  · show Exact.number 3 * Scalar.pow (Exact.number 2) (Exact.ofFloat 2.0) = _
    rw [htwo, Exact.pow_number, hsquare _ (by norm_num), Exact.number_mul]
    norm_num

end Expr

end CurvePlot
