import SqlOutline.Proofs.Statement.Nesting
import SqlOutline.Routine.Extract

/-!
# The kind of a routine

What a statement defines is looked for when it is classified, and when the header of a routine is
read. Both stop at the first word that announces one.

## Main definitions

* `DefinesRoutine` — lexemes that are classified as the definition of a routine.

## Main results

* `classify_eq_routine_iff` — which lexemes these are.
* `readSignature?_agrees_classify` — the classification, the header and the report agree.
-/

namespace SqlOutline

open Option Bool List StatementKind Lexeme

/-! ## Classification -/

/-- Lexemes that are classified as the definition of a routine: behind `CREATE` or `ALTER` the first
word that says what is defined announces a routine. -/
structure DefinesRoutine (ls : List Lexeme) (kind : RoutineKind) (alter : Bool) (verb : Lexeme)
    (between : List Lexeme) (word : Lexeme) (rest : List Lexeme) : Prop where
  lexemes : ls = verb :: (between ++ word :: rest)
  is_verb : verb.isWord (if alter then "ALTER" else "CREATE")
  between_plain : ∀ l ∈ between, l.isAnyWord objectWords = false
  is_word : routineWord? word = some kind
  within : between.length < objectWindow

variable {ls : List Lexeme} {l word : Lexeme} {kind : RoutineKind} {alter : Bool}

lemma findObject?_eq_some {n : Nat} {found : String × Option Lexeme} :
    findObject? n ls = some found ↔ ∃ between word rest, ls = between ++ word :: rest ∧
      (∀ l ∈ between, l.isAnyWord objectWords = false) ∧ word.isAnyWord objectWords ∧
        between.length < n ∧ found = (word.upper, rest.head?) := by
  induction n generalizing ls with
  | zero => simp [findObject?]
  | succ n ih =>
    cases ls with
    | nil => simp [findObject?]
    | cons l ls =>
      rw [findObject?]
      cases hl : l.isAnyWord objectWords with
      | true =>
        constructor
        · intro h
          exact ⟨[], l, ls, rfl, by simp, hl, Nat.succ_pos n, (some.inj h).symm⟩
        · rintro ⟨between, word, rest, hls, hbetween, -, -, rfl⟩
          cases between with
          | nil =>
            obtain ⟨rfl, rfl⟩ := cons.inj hls
            rfl
          | cons k between =>
            obtain ⟨rfl, -⟩ := cons.inj hls
            rw [hbetween l mem_cons_self] at hl
            cases hl
      | false =>
        rw [if_neg (by simp), ih]
        constructor
        · rintro ⟨between, word, rest, rfl, hbetween, hword, hlen, rfl⟩
          refine ⟨l :: between, word, rest, rfl, ?_, hword, by simpa using hlen, rfl⟩
          exact forall_mem_cons.mpr ⟨hl, hbetween⟩
        · rintro ⟨between, word, rest, hls, hbetween, hword, hlen, rfl⟩
          cases between with
          | nil =>
            obtain ⟨rfl, -⟩ := cons.inj hls
            rw [hl] at hword
            cases hword
          | cons k between =>
            obtain ⟨rfl, rfl⟩ := cons.inj hls
            exact ⟨between, word, rest, rfl, (forall_mem_cons.mp hbetween).2, hword,
              by simpa using hlen, rfl⟩

lemma routineWord?_eq (h : l.kind = .word) : routineWord? l =
    if l.upper ∈ ["PROCEDURE", "PROC"] then some .procedure
    else if l.upper = "FUNCTION" then some .function else none := by
  simp [routineWord?, isAnyWord, isWord, h]

lemma isAnyWord_of_routineWord? (h : routineWord? l = some kind) :
    l.isAnyWord objectWords := by
  unfold routineWord? at h
  split_ifs at h with hproc hfun
  · simp only [isAnyWord, and_eq_true, contains_iff_mem] at hproc ⊢
    have hsub : ["PROCEDURE", "PROC"] ⊆ objectWords := by decide
    exact ⟨hproc.1, hsub hproc.2⟩
  · rw [isWord_iff] at hfun
    simp [isAnyWord, hfun, objectWords]

lemma ofCreated_eq_routine_iff (h : word.kind = .word) {next : Option Lexeme} :
    ofCreated (word.upper, next) = .routine kind alter ↔
      routineWord? word = some kind ∧ alter = false := by
  rw [routineWord?_eq h]
  generalize word.upper = w
  unfold ofCreated
  split
  case h_9 =>
    rename_i heq
    obtain ⟨rfl, rfl⟩ := Prod.mk.inj heq
    split_ifs <;> simp_all
  case h_10 =>
    rename_i h₁ h₂ h₃ h₄ h₅ h₆ h₇ h₈ h₉
    have hprocedure : w ≠ "PROCEDURE" := fun hw => h₅ next (by rw [hw])
    have hproc : w ≠ "PROC" := fun hw => h₆ next (by rw [hw])
    have hfunction : w ≠ "FUNCTION" := fun hw => h₇ next (by rw [hw])
    simp [hprocedure, hproc, hfunction]
  all_goals
    rename_i heq
    obtain ⟨rfl, rfl⟩ := Prod.mk.inj heq
    simp [eq_comm]

lemma ofAltered_eq_routine_iff (h : word.kind = .word) :
    ofAltered word.upper = .routine kind alter ↔ routineWord? word = some kind ∧ alter := by
  rw [routineWord?_eq h]
  generalize word.upper = w
  unfold ofAltered
  split
  case h_10 => simp_all
  all_goals simp [eq_comm]

lemma classify_cons {verb : Lexeme} (h : verb.isWord (if alter then "ALTER" else "CREATE")) :
    classify (verb :: ls) = ((findObject? objectWindow ls).map fun found =>
      if alter then ofAltered found.1 else ofCreated found).getD .other := by
  cases alter with
  | false => simp_all [classify]
  | true =>
    have hcreate : verb.isWord "CREATE" = false := by
      rw [isWord_iff] at h
      simp [isWord, h]
    simp_all [classify]

lemma exists_verb_of_classify (h : classify ls = .routine kind alter) :
    ∃ verb rest, ∃ changed : Bool, ls = verb :: rest ∧
      verb.isWord (if changed then "ALTER" else "CREATE") := by
  cases ls with
  | nil => cases h
  | cons verb rest =>
    rw [classify] at h
    split_ifs at h with hcreate halter
    · exact ⟨verb, rest, false, rfl, hcreate⟩
    · exact ⟨verb, rest, true, rfl, halter⟩

/-- **Which lexemes are classified as the definition of a routine.** -/
lemma classify_eq_routine_iff : classify ls = .routine kind alter ↔
      ∃ verb between word rest, DefinesRoutine ls kind alter verb between word rest := by
  constructor
  · intro h
    obtain ⟨verb, ls, changed, rfl, hverb⟩ := exists_verb_of_classify h
    rw [classify_cons hverb] at h
    cases hfound : findObject? objectWindow ls with
    | none =>
      rw [hfound] at h
      cases h
    | some found =>
      obtain ⟨between, word, rest, rfl, hbetween, hword, hlen, rfl⟩ :=
        findObject?_eq_some.mp hfound
      have hkind : word.kind = .word := by
        simp only [isAnyWord, and_eq_true, beq_iff_eq] at hword
        exact hword.1
      rw [hfound, map_some, getD_some] at h
      have hroutine : routineWord? word = some kind ∧ alter = changed := by
        cases changed with
        | false => exact (ofCreated_eq_routine_iff hkind).mp h
        | true => exact (ofAltered_eq_routine_iff hkind).mp h
      obtain ⟨hroutine, rfl⟩ := hroutine
      exact ⟨verb, between, word, rest, rfl, hverb, hbetween, hroutine, hlen⟩
  · rintro ⟨verb, between, word, rest, rfl, hverb, hbetween, hroutine, hlen⟩
    have hword := isAnyWord_of_routineWord? hroutine
    have hkind : word.kind = .word := by
      simp only [isAnyWord, and_eq_true, beq_iff_eq] at hword
      exact hword.1
    have hfound : findObject? objectWindow (between ++ word :: rest) =
        some (word.upper, rest.head?) :=
      findObject?_eq_some.mpr ⟨between, word, rest, rfl, hbetween, hword, hlen, rfl⟩
    rw [classify_cons hverb, hfound, map_some, getD_some]
    cases alter with
    | false => exact (ofCreated_eq_routine_iff hkind).mpr ⟨hroutine, rfl⟩
    | true => exact (ofAltered_eq_routine_iff hkind).mpr ⟨hroutine, rfl⟩

/-! ## Headers -/

/-- Lexemes that start with `OR REPLACE` or `OR ALTER`. -/
def startsOrReplace (ls : List Lexeme) : Bool :=
  ls.head?.any (·.isWord "OR") && (ls.drop 1).head?.any (·.isAnyWord ["REPLACE", "ALTER"])

/-- The number of lexemes behind `CREATE` or `ALTER` among which the word is looked for that
announces a routine. -/
def routineReach (ls : List Lexeme) : Nat := routineWindow + if startsOrReplace ls then 2 else 0

/-- **How far the word that announces a routine is looked for.** -/
lemma behindRoutineWord?_append {n : Nat} {between rest : List Lexeme}
    (hbetween : ∀ l ∈ between, routineWord? l = none) (hword : routineWord? word = some kind) :
    behindRoutineWord? n (between ++ word :: rest) =
      if between.length < n then some (kind, rest) else none := by
  induction n generalizing between with
  | zero => simp [behindRoutineWord?]
  | succ n ih =>
    cases between with
    | nil => simp [behindRoutineWord?, hword]
    | cons l between =>
      obtain ⟨hl, hbetween⟩ := forall_mem_cons.mp hbetween
      simp [behindRoutineWord?, hl, ih hbetween]

section Header

variable {source : Text} {verb : Lexeme} {ls : List Lexeme} {alter : Bool}
  (hls : tokenize source = verb :: ls)
  (hverb : verb.isWord (if alter then "ALTER" else "CREATE"))

include hls hverb

lemma readSignature?_eq_bind : readSignature? source =
    (behindRoutineWord? routineWindow (if startsOrReplace ls then ls.drop 2 else ls)).bind
      fun found => (readName? source (behindIfExists found.2)).bind fun name =>
        some (signatureBehind source found.1 alter (startsOrReplace ls) name.1
          (parametersAtFront source (behindRoutineNumber name.2))) := by
  have halter : verb.isWord "ALTER" = alter := by
    rw [isWord_iff] at hverb
    cases alter <;> simp_all [isWord]
  have hguard : ¬ (!alter && !verb.isWord "CREATE") := by
    cases alter <;> simp_all
  unfold readSignature?
  simp only [hls, bind_eq_bind, head?_cons, bind_some, halter, if_neg hguard]
  rfl

lemma exists_of_readSignature? {s : Signature} (h : readSignature? source = some s) :
    s.alter = alter ∧ ∃ rest name,
      behindRoutineWord? routineWindow (if startsOrReplace ls then ls.drop 2 else ls) =
        some (s.kind, rest) ∧ readName? source (behindIfExists rest) = some name := by
  rw [readSignature?_eq_bind hls hverb] at h
  obtain ⟨⟨kind, rest⟩, hfound, h⟩ := bind_eq_some_iff.mp h
  obtain ⟨name, hname, h⟩ := bind_eq_some_iff.mp h
  obtain rfl := some.inj h
  exact ⟨rfl, rest, name, hfound, hname⟩

lemma exists_readSignature? {kind : RoutineKind} {rest : List Lexeme}
    {name : QualifiedName × List Lexeme}
    (hfound : behindRoutineWord? routineWindow (if startsOrReplace ls then ls.drop 2 else ls) =
      some (kind, rest)) (hname : readName? source (behindIfExists rest) = some name) :
    ∃ s, readSignature? source = some s := by
  rw [readSignature?_eq_bind hls hverb, hfound, bind_some, hname]
  exact ⟨_, rfl⟩

end Header

/-! ## Agreement -/

lemma routineWord?_eq_none (h : l.isAnyWord objectWords = false) : routineWord? l = none := by
  cases hl : routineWord? l with
  | none => rfl
  | some kind =>
    rw [isAnyWord_of_routineWord? hl] at h
    cases h

namespace DefinesRoutine

variable {ls : List Lexeme} {kind : RoutineKind} {alter : Bool} {verb : Lexeme}
  {between : List Lexeme} {word : Lexeme} {rest : List Lexeme}

lemma startsOrReplace_eq (h : DefinesRoutine ls kind alter verb between word rest) :
    startsOrReplace (between ++ word :: rest) = startsOrReplace between := by
  have hword := isAnyWord_of_routineWord? h.is_word
  simp only [isAnyWord, and_eq_true, beq_iff_eq, contains_iff_mem] at hword
  have hor : word.isWord "OR" = false := by
    have hwords : "OR" ∉ objectWords := by decide
    rw [eq_false_iff, ne_eq, isWord_iff]
    rintro ⟨-, hu⟩
    exact hwords (hu ▸ hword.2)
  have hreplace : word.isAnyWord ["REPLACE", "ALTER"] = false := by
    have hwords : ∀ w ∈ objectWords, w ∉ ["REPLACE", "ALTER"] := by decide
    simpa [isAnyWord] using fun _ => hwords _ hword.2
  rcases between with _ | ⟨l, _ | ⟨m, between⟩⟩
  · simp [startsOrReplace, hor]
  · simp [startsOrReplace, hreplace]
  · rfl

/-- **The header is read at the word** at which the statement is classified, if that word is within
reach. -/
lemma behindRoutineWord?_eq (h : DefinesRoutine ls kind alter verb between word rest) :
    behindRoutineWord? routineWindow
        (if startsOrReplace (between ++ word :: rest) then (between ++ word :: rest).drop 2
          else between ++ word :: rest) =
      if between.length < routineReach between then some (kind, rest) else none := by
  have hplain : ∀ l ∈ between, routineWord? l = none := fun l hl =>
    routineWord?_eq_none (h.between_plain l hl)
  rw [h.startsOrReplace_eq, routineReach]
  cases hor : startsOrReplace between with
  | false => simpa using behindRoutineWord?_append hplain h.is_word
  | true =>
    -- the two words are skipped, so the word is looked for two lexemes further
    rcases between with _ | ⟨l, _ | ⟨m, between⟩⟩
    · simp [startsOrReplace] at hor
    · simp [startsOrReplace] at hor
    · have hrest : ∀ k ∈ between, routineWord? k = none := fun k hk => hplain k (by simp [hk])
      simpa using behindRoutineWord?_append hrest h.is_word

end DefinesRoutine

lemma exists_of_routine?_extractRoutine {source : Text} {file : Option Dialect} {r : Routine}
    (h : (extractRoutine source file).routine? = some r) :
    ∃ s, readSignature? source = some s ∧ r.kind = s.kind ∧ r.alter = s.alter := by
  have hparsed : ∀ s : Signature, (s.withParsedHeader source).kind = s.kind ∧
      (s.withParsedHeader source).alter = s.alter := by
    intro s
    unfold Signature.withParsedHeader
    split_ifs
    · split <;> exact ⟨rfl, rfl⟩
    · exact ⟨rfl, rfl⟩
  unfold extractRoutine at h
  cases hs : readSignature? source with
  | none =>
    rw [hs] at h
    cases h
  | some s =>
    obtain ⟨hkind, halter⟩ := hparsed s
    refine ⟨s, rfl, ?_⟩
    rw [hs] at h
    dsimp only at h
    split at h
    · split_ifs at h
      · cases h
      · obtain rfl := some.inj h
        exact ⟨hkind, halter⟩
    · split at h <;>
      · obtain rfl := some.inj h
        exact ⟨hkind, halter⟩

/-- **The classification, the header and the report of a routine agree.** Where a statement is
classified as the definition of a routine, a header that can be read has the same kind and changes
the routine exactly if the statement does, and the routine is reported in the list for both. The
header is read at the word at which the statement was classified: it can be read exactly if that
word is within reach and a name follows it. -/
theorem readSignature?_agrees_classify {source : Text} {kind : RoutineKind} {alter : Bool}
    (h : classify (tokenize source) = .routine kind alter) :
    (∀ s, readSignature? source = some s → s.kind = kind ∧ s.alter = alter) ∧
    (∀ file r, (extractRoutine source file).routine? = some r →
      (Operation.routine r).category = .ofRoutine kind alter) ∧
    ∃ verb between word rest, DefinesRoutine (tokenize source) kind alter verb between word rest ∧
      ((readSignature? source).isSome = true ↔ between.length < routineReach between ∧
        (readName? source (behindIfExists rest)).isSome = true) := by
  obtain ⟨verb, between, word, rest, hdef⟩ := classify_eq_routine_iff.mp h
  have hread := hdef.behindRoutineWord?_eq
  have hheader : ∀ s, readSignature? source = some s → s.kind = kind ∧ s.alter = alter ∧
      between.length < routineReach between ∧
        ∃ name, readName? source (behindIfExists rest) = some name := by
    intro s hs
    obtain ⟨halter, rest', name, hfound, hname⟩ :=
      exists_of_readSignature? hdef.lexemes hdef.is_verb hs
    rw [hread] at hfound
    split_ifs at hfound with hreach
    obtain ⟨rfl, rfl⟩ := Prod.mk.inj (some.inj hfound)
    exact ⟨rfl, halter, hreach, name, hname⟩
  refine ⟨fun s hs => ⟨(hheader s hs).1, (hheader s hs).2.1⟩, fun file r hr => ?_,
    verb, between, word, rest, hdef, ?_, ?_⟩
  · obtain ⟨s, hs, hkind, halter⟩ := exists_of_routine?_extractRoutine hr
    obtain ⟨hskind, hsalter, -⟩ := hheader s hs
    rw [Operation.category, hkind, halter, hskind, hsalter]
  · intro hsome
    obtain ⟨s, hs⟩ := isSome_iff_exists.mp hsome
    obtain ⟨-, -, hreach, hname⟩ := hheader s hs
    exact ⟨hreach, isSome_iff_exists.mpr hname⟩
  · rintro ⟨hreach, hname⟩
    obtain ⟨name, hname⟩ := isSome_iff_exists.mp hname
    rw [if_pos hreach] at hread
    exact isSome_iff_exists.mpr
      (exists_readSignature? hdef.lexemes hdef.is_verb hread hname)

/-- The account in front of a function is named like the word for a procedure. -/
theorem readSignature?_agrees_classify_account :
    classify (tokenize "CREATE DEFINER = `PROC`@h FUNCTION s.f() RETURNS INT RETURN 1".toList) =
        .routine .function false ∧
      ∃ s, readSignature? "CREATE DEFINER = `PROC`@h FUNCTION s.f() RETURNS INT RETURN 1".toList =
        some s ∧ s.kind = .function ∧ s.alter = false :=
  have h : classify (tokenize
      "CREATE DEFINER = `PROC`@h FUNCTION s.f() RETURNS INT RETURN 1".toList) =
        .routine .function false := by decide +kernel
  have ⟨s, hs⟩ := isSome_iff_exists.mp (show (readSignature?
    "CREATE DEFINER = `PROC`@h FUNCTION s.f() RETURNS INT RETURN 1".toList).isSome = true by
      decide +kernel)
  ⟨h, s, hs, (readSignature?_agrees_classify h).1 s hs⟩

end SqlOutline
