import EntitySql.Proofs.Marks

/-!
# Conditions are read back as they are meant

The text of a clause puts parentheses only where a conjunction, a disjunction
or raw text stands inside a conjunction or disjunction. Here the reader of
`Sentence.lean` is run on such texts: it finds the tree again from which the
text was written. One missing pair of parentheses would make `and` take a
member away from an `or` around it, and the sentence that is read would be
another one.

- `Stops`: texts that end the word before them.
- `ReadsAlone`, `ReadsAsOperand`: what is read between parentheses, and what is
  read as a member of a group.
- `Clause.reads`: every clause is read in both ways.
- `Clause.read_marks`: it is read as the sentence of the clause.
- `Clause.truth_sentence`: that sentence means what the clause means.
-/

namespace EntitySql

open Mark (ofText)

variable {known : String → Prop}

/-! ## The symbols of a test -/

/-- A text that ends the word or sign before it. -/
def Stops (ms : List Mark) : Prop :=
  ∀ p : Pending, (∀ text, p ≠ .quoted text) → scanFrom p ms = p.flush ++ scanFrom .nothing ms

/-- The end of a text ends the word before it. -/
theorem stops_nil : Stops [] := by
  intro p _
  rw [scanFrom, scanFrom, Pending.flush, List.append_nil]

/-- A blank ends the word before it, and so do a closing parenthesis and a comma. -/
theorem stops_char {c : Char} (h : c = ' ' ∨ c = ')' ∨ c = ',') (ms : List Mark) :
    Stops (.char c :: ms) := by
  intro p hp
  cases p with
  -- inside quotes no character but a quote ends anything; `Stops` leaves that state out
  | quoted text => exact absurd rfl (hp text)
  | nothing => obtain rfl | rfl | rfl := h <;> rfl
  | word w => obtain rfl | rfl | rfl := h <;> rfl
  | sign s => obtain rfl | rfl | rfl := h <;> rfl

/-- The parameters of a list are read up to its end. -/
theorem Sentence.listed?_scan (ms : List Mark) :
    ∀ {vs : List Value}, vs ≠ [] →
      listed? (scanFrom .nothing (Mark.parameters vs ++ (ofText ")" ++ ms))) =
        some (vs, scanFrom .nothing ms)
  | [], h => absurd rfl h
  | [v], _ => rfl
  | v :: w :: vs, _ => by
    have hcons : Mark.parameters (v :: w :: vs) =
        [.param v] ++ (ofText ", " ++ Mark.parameters (w :: vs)) :=
      List.intercalate_cons_cons ..
    have hscan : scanFrom .nothing (Mark.parameters (v :: w :: vs) ++ (ofText ")" ++ ms)) =
        .param v :: .comma ::
          scanFrom .nothing (Mark.parameters (w :: vs) ++ (ofText ")" ++ ms)) := by
      rw [hcons]
      rfl
    rw [hscan, listed?, Sentence.listed?_scan ms (List.cons_ne_nil w vs)]

/-- A column is a symbol. -/
@[simp] theorem scanFrom_column (column : String) (ms : List Mark) :
    scanFrom .nothing (.column column :: ms) = .column column :: scanFrom .nothing ms := rfl

@[simp] theorem scanFrom_param (v : Value) (ms : List Mark) :
    scanFrom .nothing (.param v :: ms) = .param v :: scanFrom .nothing ms := rfl

/-- The words of a match, with the symbols of its keyword. -/
theorem Sentence.scan_matching {keyword : String} {symbols : List Symbol}
    (h : ∀ ms, scanFrom .nothing (ofText (") " ++ keyword ++ " lower(") ++ ms) =
      .closing :: symbols ++ .lower :: .opening :: scanFrom .nothing ms)
    (column pattern : String) (ms : List Mark) :
    scanFrom .nothing (Mark.matching column keyword pattern ++ ms) =
      .lower :: .opening :: .column column :: .closing :: symbols ++
        .lower :: .opening :: .param (.text pattern) :: .closing :: .escape :: .quoted ['!'] ::
          scanFrom .nothing ms := by
  have hlower : ∀ ms, scanFrom .nothing (ofText "lower(" ++ ms) =
      .lower :: .opening :: scanFrom .nothing ms := fun _ => rfl
  have hescape : scanFrom .nothing (ofText ") escape '!'" ++ ms) =
      .closing :: .escape :: .quoted ['!'] :: scanFrom .nothing ms := rfl
  simp only [Mark.matching, List.append_assoc, List.cons_append, hlower, h, hescape,
    scanFrom_column, scanFrom_param]

/-- A test is read as it was written, whatever comes after it. -/
theorem Sentence.test?_scan {t : Test} (ht : t.IsReadable known) {ms : List Mark} (hms : Stops ms) :
    test? (scanFrom .nothing (t.marks ++ ms)) = some (t, scanFrom .nothing ms) := by
  -- only the tests for NULL end in a word, and so depend on what comes after them
  have hnull := hms (.word "null".toList) (by simp)
  cases t with
  | isNull column =>
    have hwords : scanFrom .nothing (ofText " is null" ++ ms) =
        .is :: scanFrom (.word "null".toList) ms := rfl
    rw [Test.marks, List.cons_append, scanFrom_column, hwords, hnull]
    rfl
  | isNotNull column =>
    have hwords : scanFrom .nothing (ofText " is not null" ++ ms) =
        .is :: .not :: scanFrom (.word "null".toList) ms := rfl
    rw [Test.marks, List.cons_append, scanFrom_column, hwords, hnull]
    rfl
  | compare column op v =>
    have hop : ∀ ms, scanFrom .nothing (ofText (" " ++ op.sql ++ " ") ++ ms) =
        .op op :: scanFrom .nothing ms := by
      intro ms
      cases op <;> rfl
    rw [Test.marks, List.cons_append, List.append_assoc, scanFrom_column, hop]
    rfl
  | oneOf column vs =>
    have hwords : ∀ ms, scanFrom .nothing (ofText " in (" ++ ms) =
        .inList :: .opening :: scanFrom .nothing ms := fun _ => rfl
    rw [Test.marks, List.cons_append, List.append_assoc, List.append_assoc, scanFrom_column,
      hwords, test?, testOf?, listed?_scan ms ht.2]
  | noneOf column vs =>
    have hwords : ∀ ms, scanFrom .nothing (ofText " not in (" ++ ms) =
        .not :: .inList :: .opening :: scanFrom .nothing ms := fun _ => rfl
    rw [Test.marks, List.cons_append, List.append_assoc, List.append_assoc, scanFrom_column,
      hwords, test?, testOf?, listed?_scan ms ht.2]
  | like column pattern =>
    have hlike : ∀ ms, scanFrom .nothing (ofText (") " ++ "like" ++ " lower(") ++ ms) =
        .closing :: [.like] ++ .lower :: .opening :: scanFrom .nothing ms := fun _ => rfl
    rw [Test.marks, scan_matching hlike]
    rfl
  | notLike column pattern =>
    have hlike : ∀ ms, scanFrom .nothing (ofText (") " ++ "not like" ++ " lower(") ++ ms) =
        .closing :: [.not, .like] ++ .lower :: .opening :: scanFrom .nothing ms := fun _ => rfl
    rw [Test.marks, scan_matching hlike]
    rfl

/-! ## The parts of a sentence -/

/-- `not` before an operand. -/
theorem parse_not (f : Frame) (outer : List Frame) (symbols : List Symbol) :
    parse .operand f outer (.not :: symbols) = parse .operand f.negate outer symbols := by
  rw [parse]

theorem parse_opening (f : Frame) (outer : List Frame) (symbols : List Symbol) :
    parse .operand f outer (.opening :: symbols) =
      parse .operand .empty (f :: outer) symbols := by
  rw [parse]

theorem parse_and (f : Frame) (outer : List Frame) (symbols : List Symbol) :
    parse .operator f outer (.and :: symbols) = parse .operand f outer symbols := by
  conv_lhs => rw [parse]

theorem parse_or (f : Frame) (outer : List Frame) (symbols : List Symbol) :
    parse .operator f outer (.or :: symbols) = parse .operand f.next outer symbols := by
  conv_lhs => rw [parse]

theorem parse_closing (f g : Frame) (outer : List Frame) (symbols : List Symbol) :
    parse .operator f (g :: outer) (.closing :: symbols) =
      parse .operator (g.add f.close) outer symbols := by
  rw [parse]

theorem parse_end (f : Frame) : parse .operator f [] [] = some f.close := by
  rw [parse]

namespace Sentence

/-- A list takes symbols. -/
theorem listed?_length {symbols : List Symbol} :
    ∀ {vs : List Value} {rest : List Symbol}, listed? symbols = some (vs, rest) →
      rest.length < symbols.length := by
  fun_induction listed? symbols with
  | case1 v rest =>
    intro vs rest' h
    cases h
    simp only [List.length_cons]
    omega
  | case2 v symbols vs rest hread ih =>
    intro vs' rest' h
    cases h
    have hlt := ih hread
    simp only [List.length_cons]
    omega
  | case3 v symbols hread ih =>
    intro vs rest h
    cases h
  | case4 symbols =>
    intro vs rest h
    cases h

theorem pattern?_length {symbols rest : List Symbol} {p : String}
    (h : pattern? symbols = some (p, rest)) : rest.length < symbols.length := by
  unfold pattern? at h
  split at h <;> cases h
  simp only [List.length_cons]
  omega

theorem testOf?_length {column : String} {symbols rest : List Symbol} {t : Test}
    (h : testOf? column symbols = some (t, rest)) : rest.length < symbols.length := by
  unfold testOf? at h
  split at h
  -- two of the tests end with a list
  case h_4 | h_5 =>
    split at h <;> cases h
    next hread =>
      have hlt := listed?_length hread
      simp only [List.length_cons]
      omega
  all_goals
    cases h
    try
      simp only [List.length_cons]
      omega

theorem matchOf?_length {column : String} {symbols rest : List Symbol} {t : Test}
    (h : matchOf? column symbols = some (t, rest)) : rest.length < symbols.length := by
  unfold matchOf? at h
  split at h
  case h_3 => cases h
  all_goals
    split at h <;> cases h
    next hread =>
      have hlt := pattern?_length hread
      simp only [List.length_cons]
      omega

end Sentence

/-- A test is an operand. -/
theorem parse_of_test {f : Frame} {outer : List Frame} {t : Test} {symbols rest : List Symbol}
    (h : Sentence.test? symbols = some (t, rest)) :
    parse .operand f outer symbols = parse .operator (f.add (.test t)) outer rest := by
  have hatom : Sentence.atom? symbols = some (.test t, rest) := by
    unfold Sentence.atom?
    split
    · cases h
    · rw [h]
  have hlt : rest.length < symbols.length := by
    unfold Sentence.test? at h
    split at h
    · have hlt := Sentence.testOf?_length h
      simp only [List.length_cons]
      omega
    · have hlt := Sentence.matchOf?_length h
      simp only [List.length_cons]
      omega
    · cases h
  -- the earlier rules of the parser begin with other symbols than a test
  have hnot : ∀ rest', symbols = .not :: rest' → False := by
    rintro rest' rfl
    cases h
  have hopening : ∀ rest', symbols = .opening :: rest' → False := by
    rintro rest' rfl
    cases h
  rw [parse.eq_3 f outer symbols hnot hopening, hatom]
  exact if_pos hlt

/-! ## Clauses -/

/-- The sentence of a predicate. -/
def Predicate.sentence : Predicate → Sentence
  | .one t => .test t
  | .either t u => .any [.test t, .test u]
  | .both t u => .all [.test t, .test u]

mutual

/-- The sentence of a clause; raw text has none of its own. -/
def Clause.sentence : Clause → Sentence
  | .predicate p => p.sentence
  | .raw _ => .falsehood
  | .and cs => .all (Clause.sentences cs)
  | .or cs => .any (Clause.sentences cs)
  | .not c => .not (Clause.sentence c)

/-- The sentence of each clause of a list. -/
def Clause.sentences : List Clause → List Sentence
  | [] => []
  | c :: cs => Clause.sentence c :: Clause.sentences cs

end

/-- The symbols of `and`. -/
theorem scan_and (ms : List Mark) :
    scanFrom .nothing (ofText " and " ++ ms) = .and :: scanFrom .nothing ms := rfl

theorem scan_or (ms : List Mark) :
    scanFrom .nothing (ofText " or " ++ ms) = .or :: scanFrom .nothing ms := rfl

theorem scan_opening (ms : List Mark) :
    scanFrom .nothing (ofText "(" ++ ms) = .opening :: scanFrom .nothing ms := rfl

theorem scan_closing (ms : List Mark) :
    scanFrom .nothing (ofText ")" ++ ms) = .closing :: scanFrom .nothing ms := rfl

theorem scan_not (ms : List Mark) :
    scanFrom .nothing (ofText "not (" ++ ms) = .not :: .opening :: scanFrom .nothing ms := rfl

/-- A closing parenthesis ends the word before it. -/
theorem stops_closing (ms : List Mark) : Stops (ofText ")" ++ ms) :=
  stops_char (.inr (.inl rfl)) ms

theorem stops_and (ms : List Mark) : Stops (ofText " and " ++ ms) := stops_char (.inl rfl) _

theorem stops_or (ms : List Mark) : Stops (ofText " or " ++ ms) := stops_char (.inl rfl) _

/-- A text is read as a sentence if it stands alone, at the start or between parentheses. -/
def ReadsAlone (ns : List Mark) (s : Sentence) : Prop :=
  ∀ (outer : List Frame) (ms : List Mark), Stops ms → ∃ f : Frame, f.close = s ∧
    parse .operand .empty outer (scanFrom .nothing (ns ++ ms)) =
      parse .operator f outer (scanFrom .nothing ms)

/-- A text is read as one operand, whatever was read before it. -/
def ReadsAsOperand (ns : List Mark) (s : Sentence) : Prop :=
  ∀ (f : Frame) (outer : List Frame) (ms : List Mark), Stops ms →
    parse .operand f outer (scanFrom .nothing (ns ++ ms)) =
      parse .operator (f.add s) outer (scanFrom .nothing ms)

/-- An operand can stand alone. -/
theorem ReadsAsOperand.alone {ns : List Mark} {s : Sentence} (h : ReadsAsOperand ns s) :
    ReadsAlone ns s := by
  intro outer ms hms
  exact ⟨Frame.empty.add s, rfl, h .empty outer ms hms⟩

/-- Parentheses make an operand of what can stand alone. -/
theorem ReadsAlone.enclosed {ns : List Mark} {s : Sentence} (h : ReadsAlone ns s) :
    ReadsAsOperand (ofText "(" ++ (ns ++ ofText ")")) s := by
  intro f outer ms hms
  -- inside, the frame outside waits in the list of outer frames
  obtain ⟨g, hclose, hparse⟩ := h (f :: outer) (ofText ")" ++ ms) (stops_closing ms)
  simp only [List.append_assoc]
  rw [scan_opening, parse_opening, hparse, scan_closing, parse_closing, hclose]

/-- `not` before what stands between parentheses is an operand. -/
theorem ReadsAlone.negated {ns : List Mark} {s : Sentence} (h : ReadsAlone ns s) :
    ReadsAsOperand (ofText "not (" ++ (ns ++ ofText ")")) (.not s) := by
  intro f outer ms hms
  obtain ⟨g, hclose, hparse⟩ := h (f.negate :: outer) (ofText ")" ++ ms) (stops_closing ms)
  simp only [List.append_assoc]
  rw [scan_not, parse_not, parse_opening, hparse, scan_closing, parse_closing, hclose]
  rfl

/-- Operands with `and` between them are members of one conjunction. -/
theorem parse_conjuncts (outer : List Frame) {ms : List Mark} (hms : Stops ms)
    (ds : List Sentence) :
    ∀ {nss : List (List Mark)} {ss : List Sentence}, List.Forall₂ ReadsAsOperand nss ss →
      nss ≠ [] → ∀ ts : List Sentence,
      parse .operand ⟨ds, ts, 0⟩ outer
          (scanFrom .nothing ((ofText " and ").intercalate nss ++ ms)) =
        parse .operator ⟨ds, ts ++ ss, 0⟩ outer (scanFrom .nothing ms)
  | _, _, .nil, hne, _ => absurd rfl hne
  | _, _, .cons h .nil, _, ts => by
    rw [List.intercalate_singleton, h _ _ _ hms]
    rfl
  -- `and` ends the member before it, and the reader is at an operand again
  | _, _, .cons h (.cons h' hs), _, ts => by
    rw [List.intercalate_cons_cons, List.append_assoc, List.append_assoc, h _ _ _ (stops_and _),
      scan_and, parse_and]
    refine (parse_conjuncts outer hms ds (.cons h' hs) (List.cons_ne_nil _ _) _).trans ?_
    rw [List.append_assoc]
    rfl

theorem parse_disjuncts (outer : List Frame) {ms : List Mark} (hms : Stops ms) :
    ∀ {nss : List (List Mark)} {ss : List Sentence}, List.Forall₂ ReadsAsOperand nss ss →
      nss ≠ [] → ∀ ds : List Sentence,
      ∃ f : Frame, f.disjuncts ++ [.allOf f.conjuncts] = ds ++ ss ∧
        parse .operand ⟨ds, [], 0⟩ outer
            (scanFrom .nothing ((ofText " or ").intercalate nss ++ ms)) =
          parse .operator f outer (scanFrom .nothing ms)
  | _, _, .nil, hne, _ => absurd rfl hne
  | _, _, .cons h .nil, _, ds => by
    rw [List.intercalate_singleton, h _ _ _ hms]
    exact ⟨_, rfl, rfl⟩
  -- `or` closes the conjunction so far, which becomes one more member of the disjunction
  | _, _, .cons h (.cons h' hs), _, ds => by
    rw [List.intercalate_cons_cons, List.append_assoc, List.append_assoc, h _ _ _ (stops_or _),
      scan_or, parse_or]
    obtain ⟨f, hf, hparse⟩ := parse_disjuncts outer hms (.cons h' hs) (List.cons_ne_nil _ _) _
    refine ⟨f, ?_, hparse⟩
    rw [hf, List.append_assoc]
    rfl

/-- A test is an operand. -/
theorem Test.readsAsOperand {t : Test} (ht : t.IsReadable known) :
    ReadsAsOperand t.marks (.test t) := by
  intro f outer ms hms
  exact parse_of_test (Sentence.test?_scan ht hms)

theorem Predicate.readsAsOperand {p : Predicate} (hp : p.IsReadable known) :
    ReadsAsOperand p.marks p.sentence := by
  cases p with
  | one t => exact Test.readsAsOperand hp
  | either t u =>
    have htests : ReadsAlone ((ofText " or ").intercalate [t.marks, u.marks])
        (.any [.test t, .test u]) := by
      intro outer ms hms
      obtain ⟨f, hf, hparse⟩ := parse_disjuncts outer hms
        (.cons (Test.readsAsOperand hp.1) (.cons (Test.readsAsOperand hp.2) .nil))
        (List.cons_ne_nil _ _) []
      exact ⟨f, by rw [Frame.close, hf]; rfl, hparse⟩
    have henclosed := htests.enclosed
    rwa [List.intercalate_cons_cons, List.intercalate_singleton, List.append_assoc,
      List.append_assoc] at henclosed
  | both t u =>
    have htests : ReadsAlone ((ofText " and ").intercalate [t.marks, u.marks])
        (.all [.test t, .test u]) := by
      intro outer ms hms
      exact ⟨_, rfl, parse_conjuncts outer hms []
        (.cons (Test.readsAsOperand hp.1) (.cons (Test.readsAsOperand hp.2) .nil))
        (List.cons_ne_nil _ _) []⟩
    have henclosed := htests.enclosed
    rwa [List.intercalate_cons_cons, List.intercalate_singleton, List.append_assoc,
      List.append_assoc] at henclosed

/-- The sentences of a list are as many as its clauses. -/
theorem Clause.length_sentences (cs : List Clause) :
    (Clause.sentences cs).length = cs.length := by
  induction cs with
  | nil => rfl
  | cons c cs ih => rw [Clause.sentences, List.length_cons, List.length_cons, ih]

/-- Two or more sentences joined by `and` are a conjunction. -/
theorem Sentence.allOf_of_two_le {ss : List Sentence} (h : 2 ≤ ss.length) : allOf ss = .all ss := by
  match ss, h with
  | _ :: _ :: _, _ => rfl

theorem Sentence.anyOf_of_two_le {ss : List Sentence} (h : 2 ≤ ss.length) : anyOf ss = .any ss := by
  match ss, h with
  | _ :: _ :: _, _ => rfl

/-- A group that is readable has members. -/
theorem Clause.memberMarks_ne_nil {cs : List Clause} (h : 2 ≤ cs.length) :
    Clause.memberMarks cs ≠ [] := by
  match cs, h with
  | c :: cs, _ =>
    rw [Clause.memberMarks]
    exact List.cons_ne_nil _ _

mutual

/-- A clause stands alone, and is an operand where a group takes it as a member. -/
theorem Clause.reads : ∀ {c : Clause}, c.IsReadable known →
    ReadsAlone c.marks c.sentence ∧ ReadsAsOperand (Mark.enclose c.isCompound c.marks) c.sentence
  | .predicate p, hc => by
    rw [Clause.IsReadable] at hc
    rw [Clause.marks, Clause.sentence]
    exact ⟨(Predicate.readsAsOperand hc).alone, Predicate.readsAsOperand hc⟩
  | .raw t, hc => by
    rw [Clause.IsReadable] at hc
    exact hc.elim
  | .and cs, hc => by
    rw [Clause.IsReadable] at hc
    -- a group alone has no parentheses; as a member it is enclosed
    have halone : ReadsAlone (Clause.and cs).marks (Clause.and cs).sentence := by
      intro outer ms hms
      have hparse := parse_conjuncts outer hms [] (Clause.members_read hc.2)
        (Clause.memberMarks_ne_nil hc.1) []
      rw [Clause.marks, Clause.sentence]
      refine ⟨⟨[], Clause.sentences cs, 0⟩, ?_, hparse⟩
      exact Sentence.allOf_of_two_le (by rw [Clause.length_sentences]; exact hc.1)
    exact ⟨halone, halone.enclosed⟩
  | .or cs, hc => by
    rw [Clause.IsReadable] at hc
    have halone : ReadsAlone (Clause.or cs).marks (Clause.or cs).sentence := by
      intro outer ms hms
      obtain ⟨f, hf, hparse⟩ := parse_disjuncts outer hms (Clause.members_read hc.2)
        (Clause.memberMarks_ne_nil hc.1) []
      rw [Clause.marks, Clause.sentence]
      refine ⟨f, ?_, hparse⟩
      rw [Frame.close, hf]
      exact Sentence.anyOf_of_two_le (by rw [List.nil_append, Clause.length_sentences]; exact hc.1)
    exact ⟨halone, halone.enclosed⟩
  -- a negation has its own parentheses, so it is an operand in both places
  | .not c, hc => by
    rw [Clause.IsReadable] at hc
    have hoperand := (Clause.reads hc).1.negated
    rw [Clause.marks, Clause.sentence]
    exact ⟨hoperand.alone, hoperand⟩

theorem Clause.members_read : ∀ {cs : List Clause}, Clause.AllReadable known cs →
    List.Forall₂ ReadsAsOperand (Clause.memberMarks cs) (Clause.sentences cs)
  | [], _ => by
    rw [Clause.memberMarks, Clause.sentences]
    exact .nil
  | c :: cs, hcs => by
    rw [Clause.AllReadable] at hcs
    rw [Clause.memberMarks, Clause.sentences]
    exact .cons (Clause.reads hcs.1).2 (Clause.members_read hcs.2)

end

/-- A clause is read as its sentence. -/
theorem Clause.read_marks {c : Clause} (hc : c.IsReadable known) :
    Sentence.read? c.marks = some c.sentence := by
  obtain ⟨f, hclose, hparse⟩ := (Clause.reads hc).1 [] [] stops_nil
  rw [List.append_nil] at hparse
  rw [Sentence.read?, scan, hparse, ← hclose]
  exact parse_end f

/-! ## What is read means what is meant -/

section

variable (g : Engine) (row : Row) (raw : Template → Truth)

/-- The sentence of a predicate means the predicate. -/
theorem Predicate.truth_sentence (p : Predicate) : p.sentence.truth g row = p.truth g row := by
  cases p <;> simp [Predicate.sentence, Sentence.truth, Sentence.truths, Predicate.truth,
    Truth.any, Truth.all]

mutual

/-- The sentence of a clause means the clause. -/
theorem Clause.truth_sentence : ∀ {c : Clause}, c.IsReadable known →
    c.sentence.truth g row = c.truth g row raw
  | .predicate p, _ => by
    rw [Clause.sentence, Predicate.truth_sentence, Clause.truth]
  | .raw t, hc => by
    rw [Clause.IsReadable] at hc
    exact hc.elim
  | .and cs, hc => by
    rw [Clause.IsReadable] at hc
    rw [Clause.sentence, Sentence.truth, Clause.truth, Clause.truths_sentences hc.2]
  | .or cs, hc => by
    rw [Clause.IsReadable] at hc
    rw [Clause.sentence, Sentence.truth, Clause.truth, Clause.truths_sentences hc.2]
  | .not c, hc => by
    rw [Clause.IsReadable] at hc
    rw [Clause.sentence, Sentence.truth, Clause.truth, Clause.truth_sentence hc]

theorem Clause.truths_sentences : ∀ {cs : List Clause}, Clause.AllReadable known cs →
    Sentence.truths g row (Clause.sentences cs) = Clause.truths g row raw cs
  | [], _ => by
    rw [Clause.sentences, Sentence.truths, Clause.truths]
  | c :: cs, hcs => by
    rw [Clause.AllReadable] at hcs
    rw [Clause.sentences, Sentence.truths, Clause.truths, Clause.truth_sentence hcs.1,
      Clause.truths_sentences hcs.2]

end

end

end EntitySql
