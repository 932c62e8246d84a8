import Mirrorscope.Decoder.LiveTasks
import Mirrorscope.Decoder.TypeNames

/-! # The names of poll functions

The future type of a task is read off the name of its poll function. The name is cut
at the first comma that no open angle bracket comes before; every closing angle
bracket counts against an opening one, that of an arrow too.
-/

namespace Mirrorscope.Decoder.AsyncRust

open Text

/-! ## The scan -/

/-- The text before the comma or the bracket that ends it, `depth` angle brackets
being open. -/
def upToEnd : (depth : Nat) → List Char → Option (List Char)
  | _, [] => none
  | depth, c :: rest =>
    if c = '<' then (c :: ·) <$> upToEnd (depth + 1) rest
    else if c = '>' then
      if depth = 0 then some [] else (c :: ·) <$> upToEnd (depth - 1) rest
    else if c = ',' ∧ depth = 0 then some []
    else (c :: ·) <$> upToEnd depth rest

/-- The first generic argument of a name `poll<T, S>`. -/
def firstGenericArg (name : List Char) : Option (List Char) := do
  let inner ← name.dropPrefix? "poll<".toList
  trim <$> upToEnd 0 inner

/-! ## The poll functions of a binary -/

/-- An entry of the debug information, as far as its attributes are asked for. -/
structure FunctionDie where
  tag : UInt16
  name : Except EnumerateError (Option String)
  lowPc : Except EnumerateError (Option UInt64)

def dwTagSubprogram : UInt16 := 0x2e

/-- The entries of a unit, in order; to read on may fail. -/
abbrev DieStream := List (Except EnumerateError FunctionDie)

/-- What is recorded of an entry: the address and the future type of a poll function. -/
def pollOf (entry : FunctionDie) : Except EnumerateError (Option (UInt64 × String)) := do
  if entry.tag ≠ dwTagSubprogram then pure none
  else
    match ← entry.name with
    | none => pure none
    | some name =>
      if ¬ "poll<".toList <+: name.toList then pure none
      else
        match firstGenericArg name.toList with
        | none => pure none
        | some future => return (← entry.lowPc).map fun addr => (addr, String.ofList future)

def collectPoll (out : List (UInt64 × String)) (next : Except EnumerateError FunctionDie) :
    Except EnumerateError (List (UInt64 × String)) := do
  match ← pollOf (← next) with
  | some poll => pure (out ++ [poll])
  | none => pure out

def collectPolls (entries : DieStream) (out : List (UInt64 × String)) :
    Except EnumerateError (List (UInt64 × String)) :=
  entries.foldlM collectPoll out

/-- The future type of each poll function, unit by unit. -/
def pollTypeMap (units : List (Except EnumerateError DieStream)) :
    Except EnumerateError (List (UInt64 × String)) :=
  units.foldlM (fun out next => do collectPolls (← next) out) []

/-! ## Where the scan stops -/

/-- The number of open angle brackets after a character, unless the scan stops at it. -/
def depthStep (depth : Nat) (c : Char) : Option Nat :=
  if c = '<' then some (depth + 1)
  else if c = '>' then if depth = 0 then none else some (depth - 1)
  else if c = ',' ∧ depth = 0 then none
  else some depth

/-- The number of open angle brackets after a text that the scan passes over. -/
def depthAfter (depth : Nat) (text : List Char) : Option Nat := text.foldlM depthStep depth

@[simp] theorem depthAfter_nil (depth : Nat) : depthAfter depth [] = some depth := rfl

@[simp] theorem depthAfter_cons (depth : Nat) (c : Char) (text : List Char) :
    depthAfter depth (c :: text) = (depthStep depth c).bind fun d => depthAfter d text := by
  simp only [depthAfter, List.foldlM_cons]
  rfl

@[simp] theorem depthAfter_append (depth : Nat) (s t : List Char) :
    depthAfter depth (s ++ t) = (depthAfter depth s).bind fun d => depthAfter d t := by
  simp only [depthAfter, List.foldlM_append]
  rfl

theorem upToEnd_cons (depth : Nat) (c : Char) (rest : List Char) :
    upToEnd depth (c :: rest) =
      match depthStep depth c with
      | none => some []
      | some d => (c :: ·) <$> upToEnd d rest := by
  grind [upToEnd, depthStep]

/-- The scan gives the text up to the first character it cannot pass. -/
theorem upToEnd_eq_some {depth : Nat} {text front : List Char} :
    upToEnd depth text = some front ↔
      ∃ c rest d, text = front ++ c :: rest ∧ depthAfter depth front = some d ∧
        depthStep d c = none := by
  induction text generalizing depth front with
  | nil => simp [upToEnd]
  | cons c text ih =>
    rw [upToEnd_cons]
    cases hstep : depthStep depth c with
    | none =>
      constructor
      · intro h
        rcases Option.some.inj h with rfl
        exact ⟨c, text, depth, rfl, rfl, hstep⟩
      · rintro ⟨c', rest, d, htext, hafter, -⟩
        cases front with
        | nil => rfl
        | cons b front =>
          -- the scan would have passed over a character it stops at
          obtain ⟨rfl, -⟩ : c = b ∧ text = front ++ c' :: rest := by simpa using htext
          simp [hstep] at hafter
    | some d =>
      constructor
      · intro h
        obtain ⟨front', hfront, rfl⟩ := Option.map_eq_some_iff.mp h
        obtain ⟨c', rest, d', rfl, hafter, hstop⟩ := ih.mp hfront
        exact ⟨c', rest, d', rfl, by simp [hstep, hafter], hstop⟩
      · rintro ⟨c', rest, d', htext, hafter, hstop⟩
        cases front with
        | nil =>
          obtain ⟨rfl, -⟩ : c = c' ∧ text = rest := by simpa using htext
          rcases Option.some.inj hafter with rfl
          rw [hstep] at hstop
          cases hstop
        | cons b front =>
          obtain ⟨rfl, hrest⟩ : c = b ∧ text = front ++ c' :: rest := by simpa using htext
          have hafter' : depthAfter d front = some d' := by simpa [hstep] using hafter
          have hfront := ih.mpr ⟨c', rest, d', hrest, hafter', hstop⟩
          simp [hfront]

/-- The brackets that are open are those that were opened and not closed. -/
theorem depthAfter_count {depth d : Nat} {text : List Char} (h : depthAfter depth text = some d) :
    depth + text.count '<' = d + text.count '>' := by
  induction text generalizing depth with
  | nil =>
    rcases Option.some.inj h with rfl
    rfl
  | cons c text ih =>
    obtain ⟨d₁, hstep, hrest⟩ := Option.bind_eq_some_iff.mp (depthAfter_cons depth c text ▸ h)
    have hcount := ih hrest
    simp only [List.count_cons]
    grind [depthStep]

/-! ## Type names under the scan -/

/-- The text closes the angle brackets it opens, and the scan passes over it, unless no bracket
is open and there is a `comma` outside of those of the text. -/
def Balanced (comma : Bool) (text : List Char) : Prop :=
  ∀ depth, depthAfter depth text = if depth = 0 ∧ comma then none else some depth

namespace Balanced

variable {a b : Bool} {s t : List Char}

theorem plain {text : List Char} (h : Plain text) : Balanced false text := by
  intro depth
  induction text with
  | nil => simp
  | cons c text ih =>
    obtain ⟨hc, htext⟩ := plain_cons.mp h
    have hstep : depthStep depth c = some depth := by simp [depthStep, hc]
    rw [depthAfter_cons, hstep, Option.bind_some, ih htext]

theorem comma : Balanced true [','] := by
  intro depth
  by_cases h : depth = 0
  · simp [depthStep, h]
  · simp [depthStep, h]

theorem append (hs : Balanced a s) (ht : Balanced b t) : Balanced (a || b) (s ++ t) := by
  intro depth
  rw [depthAfter_append, hs depth]
  by_cases h : depth = 0 ∧ a
  · simp [h]
  · rw [if_neg h, Option.bind_some, ht depth]
    cases a with
    | false => simp
    | true =>
      have hdepth : depth ≠ 0 := fun h0 => h ⟨h0, rfl⟩
      simp [hdepth]

theorem append_plain (hs : Balanced a s) (ht : Plain t) : Balanced a (s ++ t) := by
  have h := hs.append (plain ht)
  rwa [Bool.or_false] at h

theorem plain_append (hs : Plain s) (ht : Balanced b t) : Balanced b (s ++ t) :=
  (plain hs).append ht

/-- Within angle brackets no comma shows. -/
theorem angles (hs : Balanced a s) : Balanced false ('<' :: s ++ ['>']) := by
  intro depth
  have hopen : depthStep depth '<' = some (depth + 1) := rfl
  rw [List.cons_append, depthAfter_cons, hopen, Option.bind_some, depthAfter_append,
    hs (depth + 1)]
  simp [depthStep]

end Balanced

theorem topComma_or_isSingle (ts : Phrase .types) : (ts.topComma || ts.isSingle) = ! ts.isNil := by
  cases ts with
  | nilTypes => rfl
  | consTypes t ts => simp [Phrase.topComma, Phrase.isSingle, Phrase.isNil, Bool.or_assoc]

theorem topComma_of_isNil {ts : Phrase .types} (h : ts.isNil = true) : ts.topComma = false := by
  cases ts with
  | nilTypes => rfl
  | consTypes t ts => simp [Phrase.isNil] at h

/-- Without arrows a phrase is balanced. -/
theorem balanced_print {k : Part} (x : Phrase k) (h : x.arrows = 0) :
    Balanced x.topComma x.print := by
  have hround : Plain ['('] ∧ Plain [')'] := by decide
  have hsquare : Plain ['['] ∧ Plain [']'] := by decide
  have hcomma : Balanced true ", ".toList := Balanced.comma.append_plain (by decide : Plain [' '])
  induction x with
  | ofPath p ih => exact ih h
  | never => exact .plain (by decide)
  | tuple elems ih =>
    have hsingle : Balanced elems.isSingle (if elems.isSingle then [','] else []) := by
      cases elems.isSingle with
      | true => exact .comma
      | false => exact .plain (by decide)
    have hin := ((ih h).append hsingle).plain_append hround.1
    rw [topComma_or_isSingle, ← List.append_assoc] at hin
    exact hin.append_plain hround.2
  | parens t ih => exact ((ih h).plain_append hround.1).append_plain hround.2
  | ref isMut t ih => exact (ih h).plain_append (by cases isMut <;> decide)
  | ptr isMut t ih => exact (ih h).plain_append (by cases isMut <;> decide)
  | slice t ih => exact ((ih h).plain_append hsquare.1).append_plain hsquare.2
  | array t len ih =>
    have hsep : Plain "; ".toList := by decide
    exact ((((ih h).plain_append hsquare.1).append_plain hsep).append_plain len.plain).append_plain
      hsquare.2
  | fnPtr quals params ih =>
    exact ((ih h).plain_append (Phrase.plain_quals quals)).append_plain hround.2
  | fnPtrTo => simp [Phrase.arrows] at h
  | dyn bounds ih => exact (ih h).plain_append (by decide)
  | first w => exact .plain w.plain
  | segment p w ih =>
    have hsep : Plain "::".toList := by decide
    exact ((ih h).append_plain hsep).append_plain w.plain
  | generic p args ihp ihargs =>
    obtain ⟨hp, hargs⟩ : p.arrows = 0 ∧ args.arrows = 0 := by simpa [Phrase.arrows] using h
    have hgeneric := (ihp hp).append (ihargs hargs).angles
    simpa [Phrase.print, Phrase.topComma] using hgeneric
  | typeArg t ih => exact ih h
  | wordArg w => exact .plain w.plain
  | assocArg w t ih =>
    have hsep : Plain ['='] := by decide
    exact ((ih h).plain_append hsep).plain_append w.plain
  | lastArg a ih => exact ih h
  | consArg a args iha ihargs =>
    obtain ⟨ha, hargs⟩ : a.arrows = 0 ∧ args.arrows = 0 := by simpa [Phrase.arrows] using h
    have hall := ((iha ha).append hcomma).append (ihargs hargs)
    rwa [Bool.or_true, Bool.true_or] at hall
  | nilTypes => exact .plain (by decide)
  | consTypes t ts iht ihts =>
    obtain ⟨ht, hts⟩ : t.arrows = 0 ∧ ts.arrows = 0 := by simpa [Phrase.arrows] using h
    have hsep : Balanced (! ts.isNil) (if ts.isNil then [] else ", ".toList) := by
      cases ts.isNil with
      | true => exact .plain (by decide)
      | false => exact hcomma
    have hall := ((iht ht).append hsep).append (ihts hts)
    -- past the separator there is a comma already, or nothing at all
    have hbool : ((t.topComma || ! ts.isNil) || ts.topComma) = (t.topComma || ! ts.isNil) := by
      cases hnil : ts.isNil with
      | true => simp [topComma_of_isNil hnil]
      | false => simp
    rw [hbool] at hall
    exact hall
  | lastBound p ih => exact ih h
  | consBound p bounds ihp ihbounds =>
    obtain ⟨hp, hbounds⟩ : p.arrows = 0 ∧ bounds.arrows = 0 := by simpa [Phrase.arrows] using h
    have hsep : Plain " + ".toList := by decide
    exact ((ihp hp).append_plain hsep).append (ihbounds hbounds)

/-- The name of the poll function for a future type and a scheduler. -/
def pollName (T S : RustType) : List Char :=
  "poll<".toList ++ (T.print ++ (", ".toList ++ S.print ++ ['>']))

/-- A type the scan passes over: no function pointer in it has a return type, and outside of
generic arguments it has no comma, which is that of a tuple or of a parameter list. -/
def Phrase.Readable (T : RustType) : Prop := T.arrows = 0 ∧ T.topComma = false

instance (T : RustType) : Decidable T.Readable :=
  inferInstanceAs (Decidable (T.arrows = 0 ∧ T.topComma = false))

theorem depthAfter_print (T : RustType) : depthAfter 0 T.print = some 0 ↔ T.Readable := by
  constructor
  · intro h
    -- every arrow would have closed a bracket too many
    have hcount := depthAfter_count h
    have hclose := T.count_close
    have harrows : T.arrows = 0 := by omega
    refine ⟨harrows, ?_⟩
    rw [balanced_print T harrows 0] at h
    simpa using h
  · rintro ⟨harrows, hcomma⟩
    rw [balanced_print T harrows 0, hcomma]
    simp

/-- The scan ends with the type name exactly if it can pass over it. -/
theorem upToEnd_print (T : RustType) (rest : List Char) :
    upToEnd 0 (T.print ++ ',' :: rest) = some T.print ↔ T.Readable := by
  rw [upToEnd_eq_some, ← depthAfter_print]
  constructor
  · rintro ⟨c, rest', d, htext, hafter, hstop⟩
    obtain ⟨rfl, -⟩ : ',' = c ∧ rest = rest' := by simpa using htext
    have hd : d = 0 := by
      by_contra hne
      simp [depthStep, hne] at hstop
    rw [hafter, hd]
  · intro h
    exact ⟨',', rest, 0, rfl, h, rfl⟩

/-- Only the type name itself is trimmed to the type name. -/
theorem trim_front {T : RustType} {front rest rest' : List Char} {c : Char}
    (htext : T.print ++ ',' :: rest = front ++ c :: rest') (htrim : trim front = T.print) :
    front = T.print := by
  have hstarts : Starts T.print := T.starts_print (by decide)
  rcases List.append_eq_append_iff.mp htext with ⟨more, hfront, hmore⟩ | ⟨more, hprint, -⟩
  · cases more with
    | nil => rw [hfront, List.append_nil]
    | cons b more =>
      -- the comma after the type name would be kept
      obtain ⟨rfl, -⟩ : ',' = b ∧ rest = more ++ c :: rest' := by simpa using hmore
      have hcomma : isWhitespace ',' = false := by decide
      rw [hfront, trim_append hstarts hcomma] at htrim
      exact absurd (List.append_right_eq_self.mp htrim) (trimEnd_ne_nil more hcomma)
  · -- what is trimmed away cannot have been part of the type name
    have hle := length_trim_le front
    rw [htrim, hprint, List.length_append] at hle
    have hmore : more = [] := List.length_eq_zero_iff.mp (by omega)
    rw [hprint, hmore, List.append_nil]

theorem firstGenericArg_pollName (T S : RustType) :
    firstGenericArg (pollName T S) = some T.print ↔ T.Readable := by
  have hname : firstGenericArg (pollName T S) =
      trim <$> upToEnd 0 (T.print ++ ',' :: (' ' :: S.print ++ ['>'])) := by
    simp [firstGenericArg, pollName, List.dropPrefix?]
  rw [hname]
  constructor
  · intro h
    obtain ⟨front, hfront, htrim⟩ := Option.map_eq_some_iff.mp h
    obtain ⟨c, rest, -, htext, -⟩ := upToEnd_eq_some.mp hfront
    rw [trim_front htext htrim] at hfront
    exact (upToEnd_print T _).mp hfront
  · intro h
    rw [(upToEnd_print T _).mpr h, Option.map_eq_map, Option.map_some,
      trim_eq (T.starts_print (by decide)) (T.ends_print (by decide))]

/-! ## The recorded types -/

/-- The entry is read among those of the units. -/
def InUnits (units : List (Except EnumerateError DieStream)) (entry : FunctionDie) : Prop :=
  ∃ entries : DieStream, .ok entries ∈ units ∧ .ok entry ∈ entries

theorem prefix_of_firstGenericArg {name future : List Char}
    (h : firstGenericArg name = some future) : "poll<".toList <+: name := by
  obtain ⟨inner, hinner, -⟩ := Option.bind_eq_some_iff.mp h
  obtain ⟨p, rfl, hp⟩ := List.dropPrefix?_eq_some_iff.mp hinner
  rw [← eq_of_beq hp]
  exact List.prefix_append p inner

/-- A function with a name and an address is recorded with what its name gives. -/
theorem pollOf_eq {entry : FunctionDie} {name : String} {addr : UInt64}
    (htag : entry.tag = dwTagSubprogram) (hname : entry.name = .ok (some name))
    (haddr : entry.lowPc = .ok (some addr)) :
    pollOf entry = .ok ((firstGenericArg name.toList).map fun future =>
      (addr, String.ofList future)) := by
  rw [pollOf, if_neg (by simp [htag]), hname, Effect.except_ok_bind]
  cases hfirst : firstGenericArg name.toList with
  | none =>
    simp only [hfirst, ite_self]
    rfl
  | some future =>
    simp only [prefix_of_firstGenericArg hfirst, not_true_eq_false, ↓reduceIte, hfirst, haddr]
    rfl

/-- Only functions are recorded, under their own address. -/
theorem of_pollOf {entry : FunctionDie} {poll : UInt64 × String}
    (h : pollOf entry = .ok (some poll)) :
    entry.tag = dwTagSubprogram ∧ entry.lowPc = .ok (some poll.1) := by
  rw [pollOf] at h
  split at h
  · cases h
  rename_i htag
  refine ⟨not_not.mp htag, ?_⟩
  rcases Effect.except_bind_ok h with ⟨name?, hname, h⟩
  split at h
  · cases h
  split at h
  · cases h
  split at h
  · cases h
  rcases Effect.except_bind_ok h with ⟨addr?, haddr, h⟩
  obtain ⟨addr, rfl, rfl⟩ := Option.map_eq_some_iff.mp (Except.ok.inj h)
  exact haddr

theorem mem_collectPoll (out : List (UInt64 × String)) (next : Except EnumerateError FunctionDie)
    (out' : List (UInt64 × String)) (h : collectPoll out next = .ok out') (poll : UInt64 × String) :
    poll ∈ out' ↔ poll ∈ out ∨ ∃ entry, next = .ok entry ∧ pollOf entry = .ok (some poll) := by
  rcases Effect.except_bind_ok h with ⟨entry, rfl, hrest⟩
  rcases Effect.except_bind_ok hrest with ⟨found, hfound, hout⟩
  cases found with
  | none =>
    rcases Except.ok.inj hout with rfl
    simp [hfound]
  | some new =>
    rcases Except.ok.inj hout with rfl
    simp [hfound, eq_comm]

theorem mem_pollTypeMap {units : List (Except EnumerateError DieStream)}
    {polls : List (UInt64 × String)} (h : pollTypeMap units = .ok polls) (poll : UInt64 × String) :
    poll ∈ polls ↔ ∃ entry, InUnits units entry ∧ pollOf entry = .ok (some poll) := by
  have hunit : ∀ out next out', (do collectPolls (← next) out) = Except.ok out' →
      ∀ poll, poll ∈ out' ↔ poll ∈ out ∨ ∃ entries, next = Except.ok entries ∧
        ∃ n ∈ entries, ∃ entry, n = .ok entry ∧ pollOf entry = .ok (some poll) := by
    intro out next out' h poll
    rcases Effect.except_bind_ok h with ⟨entries, rfl, hrest⟩
    have hfold : entries.foldlM collectPoll out = .ok out' := hrest
    have hmem := Effect.mem_foldlM mem_collectPoll hfold poll
    simpa using hmem
  have hmem := Effect.mem_foldlM hunit h poll
  rw [hmem]
  simp only [List.not_mem_nil, false_or, InUnits]
  constructor
  · rintro ⟨_, hin, entries, rfl, _, hentry, entry, rfl, hpoll⟩
    exact ⟨entry, ⟨entries, hin, hentry⟩, hpoll⟩
  · rintro ⟨entry, ⟨entries, hin, hentry⟩, hpoll⟩
    exact ⟨_, hin, entries, rfl, _, hentry, entry, rfl, hpoll⟩

/-- There is a poll function for the two types at the address, and no other function. -/
structure PollAt (units : List (Except EnumerateError DieStream)) (addr : UInt64) (T S : RustType) :
    Prop where
  found : ∃ entry, InUnits units entry ∧ entry.tag = dwTagSubprogram ∧
    entry.lowPc = .ok (some addr)
  named : ∀ entry, InUnits units entry → entry.tag = dwTagSubprogram →
    entry.lowPc = .ok (some addr) → entry.name = .ok (some (String.ofList (pollName T S)))

/-- A poll function is known by what the scan makes of its name. -/
theorem futureTypeFor_eq {units : List (Except EnumerateError DieStream)} {facts : BinaryFacts}
    (h : pollTypeMap units = .ok facts.pollTypes) {addr : UInt64} {T S : RustType}
    (hpoll : PollAt units addr T S) :
    facts.futureTypeFor addr = (firstGenericArg (pollName T S)).map String.ofList := by
  obtain ⟨entry, hin, htag, haddr⟩ := hpoll.found
  have hentry := pollOf_eq htag (hpoll.named entry hin htag haddr) haddr
  rw [String.toList_ofList] at hentry
  -- whatever is recorded at the address is recorded of such an entry
  have hall : ∀ poll ∈ facts.pollTypes, poll.1 = addr →
      (firstGenericArg (pollName T S)).map String.ofList = some poll.2 := by
    rintro ⟨_, future⟩ hmem rfl
    obtain ⟨e, hin', hrec⟩ := (mem_pollTypeMap h _).mp hmem
    obtain ⟨htag', haddr'⟩ := of_pollOf hrec
    have he := pollOf_eq htag' (hpoll.named e hin' htag' haddr') haddr'
    rw [String.toList_ofList, hrec] at he
    obtain ⟨text, htext, hpair⟩ := Option.map_eq_some_iff.mp (Except.ok.inj he).symm
    rw [htext, Option.map_some, (Prod.mk.inj hpair).2]
  rw [BinaryFacts.futureTypeFor]
  cases hfirst : firstGenericArg (pollName T S) with
  | none =>
    have hnone : facts.pollTypes.find? (fun poll => poll.1 = addr) = none := by
      rw [List.find?_eq_none]
      intro poll hmem haddr'
      have hsome := hall poll hmem (of_decide_eq_true haddr')
      rw [hfirst] at hsome
      cases hsome
    rw [hnone]
    rfl
  | some future =>
    have hmem : (addr, String.ofList future) ∈ facts.pollTypes := by
      rw [hfirst] at hentry
      exact (mem_pollTypeMap h _).mpr ⟨entry, hin, hentry⟩
    cases hfind : facts.pollTypes.find? fun poll => poll.1 = addr with
    | none =>
      exact absurd (List.find?_eq_none.mp hfind _ hmem) (by simp)
    | some poll =>
      have hpolladdr : poll.1 = addr := of_decide_eq_true (List.find?_some hfind :)
      rw [← hfirst, hall poll (List.mem_of_find?_eq_some hfind) hpolladdr, Option.map_some]

/-- The future type is recovered from the name of a poll function, and kept as the type of that
function, exactly if the scan can pass over it. -/
theorem poll_types_recovered (T S : RustType) :
    (firstGenericArg (pollName T S) = some T.print ↔ T.Readable) ∧
      ∀ (units : List (Except EnumerateError DieStream)) (facts : BinaryFacts) (addr : UInt64),
        pollTypeMap units = .ok facts.pollTypes → PollAt units addr T S →
          (facts.futureTypeFor addr = some (String.ofList T.print) ↔ T.Readable) := by
  refine ⟨firstGenericArg_pollName T S, ?_⟩
  intro units facts addr hmap hpoll
  rw [futureTypeFor_eq hmap hpoll, ← firstGenericArg_pollName T S, Option.map_eq_some_iff]
  constructor
  · rintro ⟨future, hfuture, heq⟩
    rw [hfuture, String.ofList_injective heq]
  · intro hfuture
    exact ⟨T.print, hfuture, rfl⟩

/-- The body of `async fn sleeper`. -/
def sleeperType : RustType :=
  .ofPath (.segment
    (.segment (.first ⟨"probe".toList, by decide, by decide, by decide⟩)
      ⟨"sleeper".toList, by decide, by decide, by decide⟩)
    (.marker ⟨"async_fn_env".toList, by decide, by decide, by decide⟩ 0))

/-- A scheduler, named in short. -/
def schedulerType : RustType := .ofPath (.first ⟨"S".toList, by decide, by decide, by decide⟩)

/-- The entry of the poll function of `sleeper`. -/
def sleeperDie : FunctionDie where
  tag := dwTagSubprogram
  name := .ok (some (String.ofList (pollName sleeperType schedulerType)))
  lowPc := .ok (some 0xA6AA)

theorem poll_types_recovered_sleeper :
    ({ EnumerationPlan.sleeperPlan.facts with
        pollTypes := [(0xA6AA, String.ofList sleeperType.print)] } : BinaryFacts).futureTypeFor
      0xA6AA = some (String.ofList sleeperType.print) := by
  have hpoll : PollAt [.ok [.ok sleeperDie]] 0xA6AA sleeperType schedulerType := by
    have hall : ∀ entry, InUnits [.ok [.ok sleeperDie]] entry → entry = sleeperDie := by
      rintro entry ⟨entries, hentries, hentry⟩
      rcases Except.ok.inj (List.mem_singleton.mp hentries) with rfl
      exact Except.ok.inj (List.mem_singleton.mp hentry)
    refine ⟨⟨sleeperDie, ⟨[.ok sleeperDie], by simp, by simp⟩, rfl, rfl⟩, ?_⟩
    intro entry hentry _ _
    rw [hall entry hentry]
    rfl
  have hmap : pollTypeMap [.ok [.ok sleeperDie]] =
      .ok [(0xA6AA, String.ofList sleeperType.print)] := by
    have hfirst := (firstGenericArg_pollName sleeperType schedulerType).mpr (by decide)
    have hdie : pollOf sleeperDie = _ := pollOf_eq rfl rfl rfl
    rw [String.toList_ofList, hfirst] at hdie
    simp only [pollTypeMap, List.foldlM_cons, collectPolls, collectPoll, Effect.except_ok_bind, hdie]
    rfl
  exact ((poll_types_recovered sleeperType schedulerType).2 _ _ _ hmap hpoll).mpr (by decide)

/-- The future that maps a result through a function pointer. -/
def mapType : RustType :=
  .ofPath (.generic
    (.segment (.first ⟨"futures".toList, by decide, by decide, by decide⟩)
      ⟨"Map".toList, by decide, by decide, by decide⟩)
    (.consArg (.wordArg ⟨"F".toList, by decide, by decide, by decide⟩)
      (.lastArg (.typeArg (.fnPtrTo ⟨false, none⟩
        (.consTypes (.ofPath (.first ⟨"u8".toList, by decide, by decide, by decide⟩)) .nilTypes)
        (.ofPath (.first ⟨"u8".toList, by decide, by decide, by decide⟩)))))))

/-- The bracket of the arrow is taken for that of the path, which is then missing. -/
theorem not_poll_types_recovered :
    pollName mapType schedulerType = "poll<futures::Map<F, fn(u8) -> u8>, S>".toList ∧
      firstGenericArg "poll<futures::Map<F, fn(u8) -> u8>, S>".toList =
        some "futures::Map<F, fn(u8) -> u8".toList ∧
      ¬ ∀ T S : RustType, firstGenericArg (pollName T S) = some T.print := by
  refine ⟨by decide, by decide, ?_⟩
  intro h
  exact absurd (h mapType schedulerType) (by decide)

end Mirrorscope.Decoder.AsyncRust
