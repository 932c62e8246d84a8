import Mathlib.Data.List.Count
import Mirrorscope.Lib.Numeral

/-! # Type names

The names that debug information gives to Rust types: paths with generic arguments
and with markers for closures and async bodies, tuples, references and pointers,
arrays and slices, function pointers, trait objects. An opening angle bracket always
has its closing one, but an arrow is a closing one too.
-/

namespace Mirrorscope.Decoder.AsyncRust

open Text

/-! ## Words -/

/-- A text without angle brackets and commas. -/
def Plain (text : List Char) : Prop := ∀ c ∈ text, c ≠ '<' ∧ c ≠ '>' ∧ c ≠ ','

instance (text : List Char) : Decidable (Plain text) :=
  List.decidableBAll (fun c => c ≠ '<' ∧ c ≠ '>' ∧ c ≠ ',') text

@[simp] theorem plain_nil : Plain [] := by simp [Plain]

@[simp] theorem plain_cons {c : Char} {text : List Char} :
    Plain (c :: text) ↔ (c ≠ '<' ∧ c ≠ '>' ∧ c ≠ ',') ∧ Plain text := by
  simp [Plain]

@[simp] theorem plain_append {s t : List Char} : Plain (s ++ t) ↔ Plain s ∧ Plain t :=
  List.forall_mem_append

theorem Plain.count_eq_zero {text : List Char} (h : Plain text) {c : Char}
    (hc : c = '<' ∨ c = '>') : text.count c = 0 := by
  rw [List.count_eq_zero]
  intro hmem
  rcases hc with rfl | rfl
  · exact (h _ hmem).1 rfl
  · exact (h _ hmem).2.1 rfl

/-- A word of a type name: an identifier, a primitive type, a lifetime, a constant. -/
structure Word where
  text : List Char
  ne_nil : text ≠ []
  solid : Solid text
  plain : Plain text

/-- The word that stands for a closure or an async body, such as `{closure_env#0}`. -/
def Word.marker (kind : Word) (n : Nat) : Word where
  text := '{' :: kind.text ++ '#' :: Nat.toDigits 10 n ++ ['}']
  ne_nil := by simp
  solid := by
    have hdigits : Solid (Nat.toDigits 10 n) := fun c hc =>
      (Numeral.toDigits_plain (by omega) (by omega) c hc).1
    have hother : isWhitespace '{' = false ∧ isWhitespace '#' = false ∧
        isWhitespace '}' = false := by decide
    simp [kind.solid, hdigits, hother]
  plain := by
    have hdigits : Plain (Nat.toDigits 10 n) := by
      intro c hc
      obtain ⟨d, hd, rfl⟩ := Numeral.mem_toDigits (by omega) hc
      have hall : ∀ e < 10, Nat.digitChar e ≠ '<' ∧ Nat.digitChar e ≠ '>' ∧
          Nat.digitChar e ≠ ',' := by decide
      exact hall d hd
    simp [kind.plain, hdigits]

/-! ## Phrases -/

/-- The kinds of phrases a type name is put together from. -/
inductive Part where
  | type
  | path
  | arg
  | args
  | types
  | bounds
deriving DecidableEq

/-- What stands before the `fn` of a function pointer. -/
structure FnQualifiers where
  unsafety : Bool
  abi : Option Word

/-- The phrases of each kind. -/
inductive Phrase : Part → Type where
  -- types
  | ofPath (p : Phrase .path) : Phrase .type
  | never : Phrase .type
  | tuple (elems : Phrase .types) : Phrase .type
  | parens (t : Phrase .type) : Phrase .type
  | ref (isMut : Bool) (t : Phrase .type) : Phrase .type
  | ptr (isMut : Bool) (t : Phrase .type) : Phrase .type
  | slice (t : Phrase .type) : Phrase .type
  | array (t : Phrase .type) (len : Word) : Phrase .type
  | fnPtr (quals : FnQualifiers) (params : Phrase .types) : Phrase .type
  | fnPtrTo (quals : FnQualifiers) (params : Phrase .types) (ret : Phrase .type) : Phrase .type
  | dyn (bounds : Phrase .bounds) : Phrase .type
  -- paths: any of their segments may have generic arguments
  | first (w : Word) : Phrase .path
  | segment (p : Phrase .path) (w : Word) : Phrase .path
  | generic (p : Phrase .path) (args : Phrase .args) : Phrase .path
  -- generic arguments
  | typeArg (t : Phrase .type) : Phrase .arg
  | wordArg (w : Word) : Phrase .arg
  | assocArg (w : Word) (t : Phrase .type) : Phrase .arg
  | lastArg (a : Phrase .arg) : Phrase .args
  | consArg (a : Phrase .arg) (args : Phrase .args) : Phrase .args
  -- the elements of a tuple, the parameters of a function
  | nilTypes : Phrase .types
  | consTypes (t : Phrase .type) (ts : Phrase .types) : Phrase .types
  -- the traits of a trait object
  | lastBound (p : Phrase .path) : Phrase .bounds
  | consBound (p : Phrase .path) (bounds : Phrase .bounds) : Phrase .bounds

/-- A Rust type, by its printed name. -/
abbrev RustType := Phrase .type

def FnQualifiers.print (quals : FnQualifiers) : List Char :=
  (if quals.unsafety then "unsafe ".toList else []) ++
    (match quals.abi with
    | some abi => "extern \"".toList ++ abi.text ++ "\" ".toList
    | none => []) ++ "fn(".toList

namespace Phrase

/-- There is nothing in it. -/
def isNil : {k : Part} → Phrase k → Bool
  | _, .nilTypes => true
  | _, _ => false

/-- There is exactly one type in it. -/
def isSingle : {k : Part} → Phrase k → Bool
  | _, .consTypes _ ts => ts.isNil
  | _, _ => false

/-- The text of a phrase. -/
def print : {k : Part} → Phrase k → List Char
  | _, .ofPath p => p.print
  | _, .never => ['!']
  | _, .tuple elems =>
    -- a tuple of one element is told from a type in parentheses by its comma
    '(' :: elems.print ++ (if elems.isSingle then [','] else []) ++ [')']
  | _, .parens t => '(' :: t.print ++ [')']
  | _, .ref isMut t => (if isMut then "&mut ".toList else "&".toList) ++ t.print
  | _, .ptr isMut t => (if isMut then "*mut ".toList else "*const ".toList) ++ t.print
  | _, .slice t => '[' :: t.print ++ [']']
  | _, .array t len => '[' :: t.print ++ "; ".toList ++ len.text ++ [']']
  | _, .fnPtr quals params => quals.print ++ params.print ++ [')']
  | _, .fnPtrTo quals params ret => quals.print ++ params.print ++ ") -> ".toList ++ ret.print
  | _, .dyn bounds => "dyn ".toList ++ bounds.print
  | _, .first w => w.text
  | _, .segment p w => p.print ++ "::".toList ++ w.text
  | _, .generic p args => p.print ++ '<' :: args.print ++ ['>']
  | _, .typeArg t => t.print
  | _, .wordArg w => w.text
  | _, .assocArg w t => w.text ++ '=' :: t.print
  | _, .lastArg a => a.print
  | _, .consArg a args => a.print ++ ", ".toList ++ args.print
  | _, .nilTypes => []
  | _, .consTypes t ts => t.print ++ (if ts.isNil then [] else ", ".toList) ++ ts.print
  | _, .lastBound p => p.print
  | _, .consBound p bounds => p.print ++ " + ".toList ++ bounds.print

/-- How many function pointers with a return type there are in it. -/
def arrows : {k : Part} → Phrase k → Nat
  | _, .ofPath p => p.arrows
  | _, .never => 0
  | _, .tuple elems => elems.arrows
  | _, .parens t => t.arrows
  | _, .ref _ t => t.arrows
  | _, .ptr _ t => t.arrows
  | _, .slice t => t.arrows
  | _, .array t _ => t.arrows
  | _, .fnPtr _ params => params.arrows
  | _, .fnPtrTo _ params ret => params.arrows + ret.arrows + 1
  | _, .dyn bounds => bounds.arrows
  | _, .first _ => 0
  | _, .segment p _ => p.arrows
  | _, .generic p args => p.arrows + args.arrows
  | _, .typeArg t => t.arrows
  | _, .wordArg _ => 0
  | _, .assocArg _ t => t.arrows
  | _, .lastArg a => a.arrows
  | _, .consArg a args => a.arrows + args.arrows
  | _, .nilTypes => 0
  | _, .consTypes t ts => t.arrows + ts.arrows
  | _, .lastBound p => p.arrows
  | _, .consBound p bounds => p.arrows + bounds.arrows

/-- There is a comma in it that is not within generic arguments: that of a tuple, or
between the parameters of a function pointer. -/
def topComma : {k : Part} → Phrase k → Bool
  | _, .ofPath p => p.topComma
  | _, .never => false
  | _, .tuple elems => ! elems.isNil
  | _, .parens t => t.topComma
  | _, .ref _ t => t.topComma
  | _, .ptr _ t => t.topComma
  | _, .slice t => t.topComma
  | _, .array t _ => t.topComma
  | _, .fnPtr _ params => params.topComma
  | _, .fnPtrTo _ params ret => params.topComma || ret.topComma
  | _, .dyn bounds => bounds.topComma
  | _, .first _ => false
  | _, .segment p _ => p.topComma
  | _, .generic p _ => p.topComma
  | _, .typeArg t => t.topComma
  | _, .wordArg _ => false
  | _, .assocArg _ t => t.topComma
  | _, .lastArg a => a.topComma
  | _, .consArg _ _ => true
  | _, .nilTypes => false
  | _, .consTypes t ts => t.topComma || ! ts.isNil
  | _, .lastBound p => p.topComma
  | _, .consBound p bounds => p.topComma || bounds.topComma

/-! ## What every printed phrase is like -/

theorem plain_quals (quals : FnQualifiers) : Plain quals.print := by
  rcases quals with ⟨unsafety, _ | abi⟩
  · cases unsafety <;> decide
  · have habi := abi.plain
    cases unsafety <;> simp [FnQualifiers.print, habi]

/-- Angle brackets come in pairs, and each arrow adds a closing one. -/
theorem count_close {k : Part} (x : Phrase k) :
    x.print.count '>' = x.print.count '<' + x.arrows := by
  have hword : ∀ w : Word, w.text.count '<' = 0 ∧ w.text.count '>' = 0 := fun w =>
    ⟨w.plain.count_eq_zero (.inl rfl), w.plain.count_eq_zero (.inr rfl)⟩
  have hquals : ∀ q : FnQualifiers, q.print.count '<' = 0 ∧ q.print.count '>' = 0 := fun q =>
    ⟨(plain_quals q).count_eq_zero (.inl rfl), (plain_quals q).count_eq_zero (.inr rfl)⟩
  induction x with
  | tuple elems ih => cases h : elems.isSingle <;> simp [print, arrows, h, ih]
  | ref isMut t ih => cases isMut <;> simp [print, arrows, ih]
  | ptr isMut t ih => cases isMut <;> simp [print, arrows, ih]
  | consTypes t ts iht ihts =>
    cases h : ts.isNil <;> simp [print, arrows, h, iht, ihts] <;> omega
  | _ => simp_all [print, arrows] <;> omega

theorem starts_quals (quals : FnQualifiers) : Starts quals.print := by
  have hlit : Starts "unsafe ".toList ∧ Starts "extern \"".toList ∧ Starts "fn(".toList :=
    ⟨.cons (by decide), .cons (by decide), .cons (by decide)⟩
  rcases quals with ⟨unsafety, _ | abi⟩
  · cases unsafety
    · exact hlit.2.2
    · exact hlit.1.append
  · cases unsafety
    · exact hlit.2.1.append.append.append.append
    · exact hlit.1.append.append

theorem starts_print {k : Part} (x : Phrase k) (hk : k ≠ .types) : Starts x.print := by
  induction x with
  | nilTypes => exact absurd rfl hk
  | consTypes => exact absurd rfl hk
  | ofPath p ih => exact ih (by decide)
  | never => exact .cons (by decide)
  | tuple => exact .cons (by decide)
  | parens => exact .cons (by decide)
  | ref isMut => cases isMut <;> exact .cons (by decide)
  | ptr isMut => cases isMut <;> exact .cons (by decide)
  | slice => exact .cons (by decide)
  | array => exact .cons (by decide)
  | fnPtr quals => exact (starts_quals quals).append.append
  | fnPtrTo quals => exact (starts_quals quals).append.append.append
  | dyn => exact .cons (by decide)
  | first w => exact w.solid.starts w.ne_nil
  | segment p w ih => exact (ih (by decide)).append.append
  | generic p args ih => exact (ih (by decide)).append.append
  | typeArg t ih => exact ih (by decide)
  | wordArg w => exact w.solid.starts w.ne_nil
  | assocArg w => exact (w.solid.starts w.ne_nil).append
  | lastArg a ih => exact ih (by decide)
  | consArg a args ih => exact (ih (by decide)).append.append
  | lastBound p ih => exact ih (by decide)
  | consBound p bounds ih => exact (ih (by decide)).append.append

theorem ends_print {k : Part} (x : Phrase k) (hk : k ≠ .types) : Ends x.print := by
  induction x with
  | nilTypes => exact absurd rfl hk
  | consTypes => exact absurd rfl hk
  | ofPath p ih => exact ih (by decide)
  | never => exact ⟨[], '!', rfl, by decide⟩
  | tuple => exact .last (by decide)
  | parens => exact .last (by decide)
  | ref isMut t ih => exact (ih (by decide)).append
  | ptr isMut t ih => exact (ih (by decide)).append
  | slice => exact .last (by decide)
  | array => exact .last (by decide)
  | fnPtr => exact .last (by decide)
  | fnPtrTo quals params ret _ ih => exact (ih (by decide)).append
  | dyn bounds ih => exact (ih (by decide)).append
  | first w => exact w.solid.ends w.ne_nil
  | segment p w => exact (w.solid.ends w.ne_nil).append
  | generic => exact .last (by decide)
  | typeArg t ih => exact ih (by decide)
  | wordArg w => exact w.solid.ends w.ne_nil
  | assocArg w t ih => exact (ih (by decide)).cons.append
  | lastArg a ih => exact ih (by decide)
  | consArg a args _ ih => exact (ih (by decide)).append
  | lastBound p ih => exact ih (by decide)
  | consBound p bounds _ ih => exact (ih (by decide)).append

end Phrase

end Mirrorscope.Decoder.AsyncRust
