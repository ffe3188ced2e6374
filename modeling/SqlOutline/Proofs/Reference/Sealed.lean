import SqlOutline.Proofs.Reference.Blind

/-!
# Tokens whose end shows in themselves

Nothing behind a list of tokens has an influence on how they are read if the list ends with a token
at which all that is read ends.

## Main definitions

* `Follows` — tokens that do not go on with a name or an assignment.
* `Stop` — a token at which all that is read ends.
* `Operand` — a token of which no more is read than a call.
* `Sealed` — tokens whose last one lets nothing be read over it.

## Main results

* `step_call` — a step at a word that no rule applies to is a call.
* `Stop.blind`, `Operand.blind`, `Free.blind` — steps that do not see what follows.
* `Sealed.blind` — sealed tokens are read in one way, whatever statement follows them.
-/

namespace SqlOutline.Harvest

open List Sql Body Token Option Bool

variable {words vs ws : List String} {before b : Option Token} {x p a q ts y z : List Token}
  {t h : Token} {rules : Rules} {st : State} {w : Word}

/-! ## Control words -/

def controlWords : List String :=
  reserved.filter fun w => !contains ["SELECT", "FROM", "JOIN", "USING", "INTO", "LATERAL",
    "OVERWRITE", "IGNORE", "TOP", "WITH"] w

/-- A list does not go on with what joins, assigns or names the token before it. -/
structure Follows (y : List Token) : Prop where
  marks : ∀ m ∈ [".", "@", "="], startsWithMark m y = false
  words : startsWith ["AS"] y = false

lemma isAny_eq_true_iff :
    isAny words t ↔ ∃ w, t = .word w ∧ w.quote = none ∧ w.upper ∈ words := by
  cases t with
  | word w => cases hq : w.quote <;> simp [isAny, plainWord?, Word.isAny, hq]
  | _ => simp [isAny, plainWord?]

lemma isAny_of_subset (h : isAny vs t) (hsub : vs ⊆ ws) : isAny ws t := by
  obtain ⟨w, rfl, hquote, hupper⟩ := isAny_eq_true_iff.mp h
  exact isAny_eq_true_iff.mpr ⟨w, rfl, hquote, hsub hupper⟩

lemma isAny_eq_false_of_disjoint (h : isAny vs t)
    (hdisjoint : ∀ v ∈ vs, v ∉ ws) : isAny ws t = false := by
  obtain ⟨w, rfl, -, hupper⟩ := isAny_eq_true_iff.mp h
  rw [eq_false_iff]
  intro hws
  obtain ⟨w', hw, -, hupper'⟩ := isAny_eq_true_iff.mp hws
  cases hw
  exact hdisjoint _ hupper hupper'

lemma chain?_word (hdot : startsWithMark "." y = false)
    (hat : startsWithMark "@" y = false) (w : Word) : chain? (.word w :: y) = chain? [.word w] := by
  have hglue : Unglued [.word w] y := by
    intro t ht hmark
    obtain rfl : word w = t := by simpa using ht
    cases hmark
  exact chain?_append (cons_ne_nil _ _) hdot hat hglue

lemma Follows.chain?_word (hy : Follows y) (w : Word) : chain? (.word w :: y) = chain? [.word w] :=
  Harvest.chain?_word (hy.marks _ (by simp)) (hy.marks _ (by simp)) w

section Control

variable {h : Token} (hcontrol : isAny controlWords h)

include hcontrol

lemma wall_of_control (y : List Token) : Wall (h :: y) where
  marks := by
    obtain ⟨w, rfl, -, -⟩ := isAny_eq_true_iff.mp hcontrol
    exact fun _ _ => rfl
  words := isAny_eq_false_of_disjoint hcontrol (by decide)
  relation := by
    have hreserved := isAny_of_subset hcontrol (filter_subset_self _ : controlWords ⊆ reserved)
    obtain ⟨w, rfl, hquote, hupper⟩ := isAny_eq_true_iff.mp hreserved
    simp [relation?, hquote, Word.isAny, hupper]

lemma sameWall_of_control (hy : Follows y) (hz : Follows z)
    (hparen : startsWithMark "(" y = startsWithMark "(" z) : SameWall (h :: y) (h :: z) := by
  have hwall := wall_of_control hcontrol
  have hkind : isAny ["FUNCTION", "PROCEDURE"] h = false :=
    isAny_eq_false_of_disjoint hcontrol (by decide)
  have hrecursive : isAny ["RECURSIVE"] h = false := isAny_eq_false_of_disjoint hcontrol (by decide)
  obtain ⟨w, rfl, -, -⟩ := isAny_eq_true_iff.mp hcontrol
  have hchain : chain? (.word w :: y) = chain? (.word w :: z) := by
    rw [hy.chain?_word, hz.chain?_word]
  have hresult {v : List Token} (hv : Follows v) : resultLength (.word w :: v) = 0 := by
    simp [resultLength, hv.marks "=" (by simp)]
  have hcte {v : List Token} (hv : Follows v) (c : Collector) : cte c (.word w :: v) = c := by
    have hfirst : startsWith ["RECURSIVE"] (.word w :: v) = false := hrecursive
    simp [cte, hfirst, hv.words]
  exact
    { left := hwall y
      right := hwall z
      isWord := rfl
      ends := rfl
      chain := hchain
      execute := fun c => by
        have hfirst (v : List Token) :
            startsWith ["FUNCTION", "PROCEDURE"] (.word w :: v) = false :=
          hkind
        rw [execute_eq, execute_eq, hfirst, hfirst, hresult hy, hresult hz, drop_zero,
          drop_zero, hchain]
        rfl
      assigns := rfl
      assigned := fun hassigns => by cases hassigns
      cte := fun c => by rw [hcte hy, hcte hz]
      defines := by
        have hfirst (v : List Token) : startsWith ["AS"] (.word w :: v) = isAny ["AS"] (.word w) :=
          rfl
        rw [hfirst, hfirst, drop_one, drop_one, tail_cons, tail_cons, hparen] }

lemma aliasWidth_of_control (has : isAny ["AS"] h = false) (y : List Token) :
    aliasWidth (h :: y) = 0 := by
  have hreserved := isAny_of_subset hcontrol (filter_subset_self _ : controlWords ⊆ reserved)
  obtain ⟨w, rfl, hquote, hupper⟩ := isAny_eq_true_iff.mp hreserved
  simp [aliasWidth, has, hquote, Word.isAny, hupper]

end Control

/-! ## Where all that is read ends -/

/-- Whatever is read in the tokens `a` ends in front of the token `h`. -/
inductive Stop (a : List Token) (h : Token) : Prop
  /-- A literal or an operator. -/
  | mark (hmark : isMark h) (htop : ∀ t ∈ a.getLast?, isAny ["TOP"] t = false)
  /-- A control word. Behind tables, `AS` introduces an alias. -/
  | control (hcontrol : isAny controlWords h)
      (hlast : ∀ t ∈ a.getLast?, isAny ["TOP", "AS"] t = false ∧
        t.isSymbol "." = false ∧ t.isSymbol "@" = false)
      (has : isAny ["AS"] h → ∀ t ∈ a, isAny tableWords t = false)

lemma blind_of_isMark (hmark : isMark h)
    (htop : ∀ t ∈ a.getLast?, isAny ["TOP"] t = false) (ha : ClosesParens a)
    (hchain : h.isSymbol "=" → chain? y = chain? z) (rules : Rules) (c : List Token) :
    Blind rules c a (h :: y) (h :: z) := by
  intro st plain b t x hx
  have hclosed : Closed x := closed_of_eq_append (a := b ++ [t]) ha (by simpa using hx)
  have hword (v : List Token) : (h :: v).head?.any isWord = false := isWord_of_isMark hmark
  have hfree := topFree_of_eq_append hx htop
  exact (sameWall_of_isMark hmark hchain).step_append hclosed (fun _ _ _ => hword y) (hfree _)
    (hfree _) (fun _ => ⟨aliasWidth_of_not_isWord (isWord_of_isMark hmark) y,
      aliasWidth_of_not_isWord (isWord_of_isMark hmark) z, fun _ _ _ => hword y,
      fun _ _ _ => hword z⟩) ..

lemma Stop.blind (hstop : Stop a h) (ha : ClosesParens a) (hy : Follows y) (hz : Follows z)
    (hparen : startsWithMark "(" y = startsWithMark "(" z)
    (hchain : h.isSymbol "=" → chain? y = chain? z) (rules : Rules) (c : List Token) :
    Blind rules c a (h :: y) (h :: z) := by
  cases hstop with
  | mark hmark htop => exact blind_of_isMark hmark htop ha hchain rules c
  | control hcontrol hends has =>
    intro st plain b t x hx
    have hclosed : Closed x := closed_of_eq_append (a := b ++ [t]) ha (by simpa using hx)
    have hlast : (t :: x).getLast? = a.getLast? := by
      rw [hx, getLast?_append, getLast?_cons]
      rfl
    have hfree := topFree_of_eq_append hx fun u hu =>
      isAny_eq_false_of_subset (hends u hu).1 (by decide)
    have halias (v : List Token) : AliasFree x (h :: v) := by
      intro u hu hisAs
      have hends := (hends u (mem_getLast?_of_eq_append hx hu)).1
      rw [isAny_eq_false_of_subset hends (by decide)] at hisAs
      cases hisAs
    have hglue : Unglued (t :: x) (h :: y) := by
      intro u hu hjoins
      rw [hlast] at hu
      rw [(hends u hu).2.1, (hends u hu).2.2] at hjoins
      cases hjoins
    refine (sameWall_of_control hcontrol hy hz hparen).step_append hclosed hglue (hfree _) (hfree _)
      (fun htables => ?_) ..
    have hnotAs : isAny ["AS"] h = false := by
      rw [eq_false_iff]
      intro hisAs
      rw [has hisAs t (by simp [hx])] at htables
      cases htables
    exact ⟨aliasWidth_of_control hcontrol hnotAs y, aliasWidth_of_control hcontrol hnotAs z,
      halias y, halias z⟩

/-! ## Single words -/

lemma contains_dot_eq_false (h : w.upper ∈ words)
    (hwords : ∀ v ∈ words, '.' ∉ v.toList) : w.value.toList.contains '.' = false := by
  rw [eq_false_iff]
  intro hdot
  have hmem : '.' ∈ w.value.toList := by simpa using hdot
  refine hwords _ h ?_
  simp only [Word.upper, Text.upperString, Text.upper, String.toList_ofList, List.mem_map]
  exact ⟨'.', hmem, by decide⟩

def callsProcedure (rules : Rules) (w : Word) (y : List Token) : Bool :=
  if startsWithMark "(" y then
    (closing? 0 y).any (fun k => endsStatement (y.drop k)) &&
      !(!w.value.toList.contains '.' && isAny constructs (.word w))
  else
    rules.bareCalls && endsStatement y &&
      !(!w.value.toList.contains '.' && (word w).plainWord?.any (·.isKeyword))

lemma call_word (hdot : startsWithMark "." y = false)
    (hat : startsWithMark "@" y = false) (rules : Rules) (c : Collector) (before : Option Token)
    (w : Word) : call rules c before (.word w) y =
      if startsBehind before && callsProcedure rules w y then (c.addProcedure w.value.toList, 0)
      else if startsWithMark "(" y && !(!w.value.toList.contains '.' && isAny constructs (.word w))
          && !(!w.value.toList.contains '.' &&
            (word w).plainWord?.any fun w => Name.isTypeName w.value.toList) then
        (c.addFunction w.value.toList, 0)
      else (c, 0) := by
  have hchain : chain? (.word w :: y) = some (w.value.toList, 1) := by
    rw [chain?_word hdot hat]
    simp [chain?, chainParts, startsWithMark, Text.join]
  unfold call callsProcedure
  rw [hchain]
  rfl

lemma call_word_congr (hy : Follows y) (hz : Follows z)
    (hparen : startsWithMark "(" y = startsWithMark "(" z)
    (hcall : startsBehind before → callsProcedure rules w y = callsProcedure rules w z)
    (c : Collector) : call rules c before (.word w) y = call rules c before (.word w) z := by
  have hcalls : (startsBehind before && callsProcedure rules w y) =
      (startsBehind before && callsProcedure rules w z) := by
    cases hbehind : startsBehind before with
    | false => rfl
    | true => rw [hcall hbehind]
  rw [call_word (hy.marks _ (by simp)) (hy.marks _ (by simp)),
    call_word (hz.marks _ (by simp)) (hz.marks _ (by simp)), hcalls, hparen]

def readingWords : List String :=
  tableWords ++ changeVerbs ++ ["CALL", "EXEC", "EXECUTE", "WITH", "TOP"] ++ definers

/-- A token of which no more is read than a call. -/
structure Operand (t : Token) : Prop where
  marks : ∀ m ∈ ["(", ")", ".", "@", ","], t.isSymbol m = false
  words : isAny readingWords t = false

lemma step_call (hquote : w.quote = none) (hwords : isAny readingWords (.word w) = false)
    (rules : Rules) (st : State) (before : Option Token) (plain : Bool) (ts : List Token) :
    step rules st before plain (.word w) ts =
      ({ st with collector := (call rules st.collector before (.word w) ts).1 },
        (call rules st.collector before (.word w) ts).2) := by
  have hne {word : String} (hupper : w.upper = word) (hmem : word ∈ readingWords) : False := by
    rw [isAny_eq_true_iff.mpr ⟨w, rfl, hquote, hupper ▸ hmem⟩] at hwords
    cases hwords
  have hplain : (word w).plainWord? = some w := by simp [plainWord?, hquote]
  unfold step
  simp only [isSymbol, Bool.false_eq_true, if_false, hplain]
  split
  case h_12 =>
    have husing : (w.upper == "USING") = false := by
      rw [Bool.eq_false_iff]
      intro h
      exact hne (beq_iff_eq.mp h) (by decide)
    have hdefiner : definers.contains w.upper = false := by
      rw [eq_false_iff]
      intro h
      exact hne rfl (mem_append_right _ (by simpa using h))
    simp only [husing, hdefiner, Bool.false_and, Bool.false_eq_true, if_false]
  all_goals
    rename_i hupper
    exact (hne hupper (by decide)).elim

lemma step_of_plainWord?_eq_none (ht : t.plainWord? = none)
    (hcomma : t.isSymbol "," = false) (rules : Rules) (st : State) (before : Option Token)
    (plain : Bool) (ts us : List Token) :
    step rules st before plain t ts = step rules st before plain t us := by
  unfold step
  simp only [hcomma, ht, false_eq_true, if_false]

lemma of_plainWord?_eq_some (h : t.plainWord? = some w) : t = .word w ∧ w.quote = none := by
  cases t with
  | word v =>
    cases hq : v.quote <;> simp [plainWord?, hq] at h
    subst h
    exact ⟨rfl, hq⟩
  | _ => simp [plainWord?] at h

lemma Operand.blind (ht : Operand t) (hy : Follows y) (hz : Follows z)
    (hparen : startsWithMark "(" y = startsWithMark "(" z)
    (hcall : ∀ w, t.plainWord? = some w → startsBehind a.getLast? →
      callsProcedure rules w y = callsProcedure rules w z) : Blind rules a [t] y z := by
  refine .singleton fun st plain => ?_
  cases hplain : t.plainWord? with
  | none => exact step_of_plainWord?_eq_none hplain (ht.marks _ (by simp)) ..
  | some w =>
    obtain ⟨rfl, hquote⟩ := of_plainWord?_eq_some hplain
    rw [step_call hquote ht.words, step_call hquote ht.words,
      call_word_congr hy hz hparen (hcall w hplain)]

/-! ## Sealed tokens -/

/-- Nothing that is read in the tokens `a` goes on at the token `t`. -/
inductive Free : List Token → Token → Prop
  | first {t : Token} : Free [] t
  | stop {a : List Token} {t : Token} (hstop : Stop a t) : Free a t
  | behind {a : List Token} {h t : Token} (hstop : Stop a h) (hclose : h.isSymbol ")" = false)
      (hassign : t.isSymbol "=" = false) (has : isAny ["AS"] t = false) : Free (a ++ [h]) t

/-- Tokens of which nothing reads over their end. -/
inductive Sealed (rules : Rules) : List Token → Prop
  | nil : Sealed rules []
  /-- Only a call by its name alone would see its end. -/
  | operand {a : List Token} {t : Token} (hfree : Free a t) (ht : Operand t)
      (hassign : t.isSymbol "=" = false)
      (hcall : rules.bareCalls → startsBehind a.getLast? →
        t.plainWord?.all (fun w => w.isKeyword && !w.value.toList.contains '.')) :
      Sealed rules (a ++ [t])
  /-- Only a call with arguments would see its end. -/
  | group {a : List Token} {t : Token} {g : List Token} (hfree : Free a t) (ht : Operand t)
      (hgroup : closing? 0 (.symbol "(" :: (g ++ [.symbol ")"])) = some (g.length + 2))
      (htop : ∀ u ∈ g.getLast?, isAny ["TOP"] u = false)
      (hcall : startsBehind a.getLast? → t.plainWord?.all (·.isAny constructs)) :
      Sealed rules (a ++ t :: .symbol "(" :: (g ++ [.symbol ")"]))

lemma follows_nil : Follows [] := ⟨fun _ _ => rfl, rfl⟩

lemma follows_symbol (y : List Token) : Follows (.symbol "(" :: y) :=
  ⟨by simp [startsWithMark, isSymbol], rfl⟩

lemma exists_of_startsWith (h : startsWith words q) :
    ∃ w r, q = .word w :: r ∧ isAny words (.word w) := by
  cases q with
  | nil => cases h
  | cons k q =>
    have hk : isAny words k := h
    obtain ⟨w, rfl, -⟩ := isAny_eq_true_iff.mp hk
    exact ⟨w, q, rfl, hk⟩

lemma follows_of_statement (hq : startsWith statementWords q) : Follows q := by
  obtain ⟨w, q, rfl, hk⟩ := exists_of_startsWith hq
  exact ⟨fun _ _ => rfl, isAny_eq_false_of_disjoint hk (by decide)⟩

lemma startsWithMark_of_statement (hq : startsWith statementWords q)
    (m : String) : startsWithMark m q = false := by
  obtain ⟨w, q, rfl, -⟩ := exists_of_startsWith hq
  rfl

lemma endsStatement_of_statement (hq : startsWith statementWords q) :
    endsStatement q = false := by
  obtain ⟨w, q, rfl, -⟩ := exists_of_startsWith hq
  rfl

lemma depthAfter_of_not_paren (hopen : t.isSymbol "(" = false)
    (hclose : t.isSymbol ")" = false) (d : Nat) : depthAfter d t = d := by
  simp [depthAfter, hopen, hclose]

lemma closesParens_of_concat (h : ClosesParens (a ++ [t]))
    (hopen : t.isSymbol "(" = false) (hclose : t.isSymbol ")" = false) : ClosesParens a := by
  rw [ClosesParens, foldl_append, foldl_cons, foldl_nil, depthAfter_of_not_paren hopen hclose] at h
  exact h

lemma foldl_depthAfter_of_closing? {g : List Token} {k : Nat}
    (h : closing? (k + 1) (g ++ [.symbol ")"]) = some (g.length + 1)) (d : Nat) :
    g.foldl depthAfter (d + k) = d := by
  induction g generalizing k with
  | nil =>
    rw [nil_append, closing?] at h
    split_ifs at h with hopen hclose hlast
    · cases hopen
    · rw [foldl_nil]
      omega
    · simp [closing?] at h
    · cases h
  | cons t g ih =>
    rw [cons_append, closing?] at h
    rw [foldl_cons, depthAfter]
    split_ifs at h ⊢ with hopen hclose hlast
    · obtain ⟨n, hn, hlength⟩ := map_eq_some_iff.mp h
      rw [length_cons] at hlength
      exact ih (k := k + 1) (hn.trans (congrArg some (by omega)))
    · simp at h
    · obtain ⟨n, hn, hlength⟩ := map_eq_some_iff.mp h
      rw [length_cons] at hlength
      obtain ⟨j, rfl⟩ : ∃ j, k = j + 1 := ⟨k - 1, by omega⟩
      exact ih (k := j) (hn.trans (congrArg some (by omega)))
    · obtain ⟨n, hn, hlength⟩ := map_eq_some_iff.mp h
      rw [length_cons] at hlength
      exact ih (hn.trans (congrArg some (by omega)))

lemma Stop.operand (hstop : Stop a h) (hclose : h.isSymbol ")" = false) : Operand h := by
  cases hstop with
  | mark hmark htop =>
    refine ⟨fun m hm => ?_, isAny_of_not_isWord (isWord_of_isMark hmark) _⟩
    by_cases hm' : m = ")"
    · rw [hm', hclose]
    · exact (wall_of_isMark hmark []).marks m (by simpa [hm'] using hm)
  | control hcontrol hlast has =>
    refine ⟨?_, isAny_eq_false_of_disjoint hcontrol (by decide)⟩
    obtain ⟨w, rfl, -, -⟩ := isAny_eq_true_iff.mp hcontrol
    exact fun _ _ => rfl

lemma Free.blind (hfree : Free a t) (ht : Operand t)
    (ha : ClosesParens a) (hy : Follows y) (hz : Follows z)
    (hparen : startsWithMark "(" y = startsWithMark "(" z)
    (hchain : t.isSymbol "=" → chain? y = chain? z) (rules : Rules) :
    Blind rules [] a (t :: y) (t :: z) := by
  cases hfree with
  | first => exact .nil
  | stop hstop => exact hstop.blind ha hy hz hparen hchain rules []
  | behind hstop hclose hassign has =>
    rename_i b h
    have hh : Operand h := hstop.operand hclose
    have hfollows (v : List Token) : Follows (t :: v) := by
      refine ⟨fun m hm => ?_, has⟩
      have hm : m = "." ∨ m = "@" ∨ m = "=" := by simpa using hm
      rcases hm with rfl | rfl | rfl
      · exact ht.marks _ (by simp)
      · exact ht.marks _ (by simp)
      · exact hassign
    have hchain' : chain? (t :: y) = chain? (t :: z) := by
      cases hword : t.isWord with
      | false => rw [chain?_of_not_isWord hword, chain?_of_not_isWord hword]
      | true =>
        obtain ⟨w, rfl⟩ := isWord_iff.mp hword
        rw [hy.chain?_word, hz.chain?_word]
    have hb : ClosesParens b := closesParens_of_concat ha (hh.marks _ (by simp)) hclose
    refine Blind.append ?_ ?_
    · exact hstop.blind hb (hfollows y) (hfollows z) rfl (fun _ => hchain') rules []
    · refine hh.blind (hfollows y) (hfollows z) rfl fun w _ _ => ?_
      have hopen (v : List Token) : startsWithMark "(" (t :: v) = false := ht.marks _ (by simp)
      unfold callsProcedure
      rw [hopen, hopen]
      rfl

lemma Sealed.not_open (h : Sealed rules p) :
    ∀ t ∈ p.getLast?, isAny ["TOP"] t = false ∧ t.isSymbol "," = false := by
  intro u hu
  cases h with
  | nil => cases hu
  | @operand a t hfree ht hassign hcall =>
    rw [getLast?_concat, mem_def, some.injEq] at hu
    rw [← hu]
    exact ⟨isAny_eq_false_of_subset ht.words (by decide), ht.marks _ (by simp)⟩
  | @group a t g hfree ht hgroup htop hcall =>
    have hlast : (a ++ t :: .symbol "(" :: (g ++ [.symbol ")"])).getLast? = some (.symbol ")") := by
      simp [getLast?_cons]
    rw [hlast, mem_def, some.injEq] at hu
    rw [← hu]
    exact ⟨rfl, rfl⟩

/-- **In front of a statement, sealed tokens are blind.**

**Proof sketch.** What is read in front of the last operand ends there or before it. The operand
itself is a call at most, and the group behind it is closed. -/
lemma Sealed.blind (h : Sealed rules p) (hp : ClosesParens p)
    (hq : startsWith statementWords q) : Blind rules [] p q [] := by
  have hfollows := follows_of_statement hq
  have hmark := startsWithMark_of_statement hq
  have hends := endsStatement_of_statement hq
  cases h with
  | nil => exact .nil
  | @operand a t hfree ht hassign hcall =>
    have ha : ClosesParens a :=
      closesParens_of_concat hp (ht.marks _ (by simp)) (ht.marks _ (by simp))
    refine Blind.append ?_ ?_
    · refine hfree.blind ht ha hfollows follows_nil (hmark "(") (fun hassigns => ?_) rules
      rw [hassign] at hassigns
      cases hassigns
    · refine ht.blind hfollows follows_nil (hmark "(") fun w hw hbehind => ?_
      obtain ⟨rfl, hquote⟩ := of_plainWord?_eq_some hw
      have hopen : startsWithMark "(" [] = false := rfl
      unfold callsProcedure
      rw [hmark "(", hopen, hends]
      cases hbare : rules.bareCalls with
      | false => rfl
      | true =>
        have hkeyword := hcall hbare hbehind
        rw [hw, all_some, and_eq_true] at hkeyword
        rw [hw, any_some, hkeyword.1, hkeyword.2]
        rfl
  | @group a t g hfree ht hgroup htop hcall =>
    have hinner : closing? 1 (g ++ [.symbol ")"]) = some (g.length + 1) := by
      rw [closing?, if_pos rfl] at hgroup
      obtain ⟨n, hn, hlength⟩ := map_eq_some_iff.mp hgroup
      exact hn.trans (congrArg some (by omega))
    have hdepth (d : Nat) : g.foldl depthAfter d = d := foldl_depthAfter_of_closing? hinner d
    have ha : ClosesParens a := by
      rw [ClosesParens, foldl_append, foldl_cons, foldl_cons, foldl_append,
        depthAfter_of_not_paren (ht.marks _ (by simp)) (ht.marks _ (by simp)), hdepth] at hp
      exact hp
    have hy : Follows (.symbol "(" :: (g ++ [.symbol ")"]) ++ q) := follows_symbol _
    have hz : Follows (.symbol "(" :: (g ++ [.symbol ")"]) ++ []) := follows_symbol _
    have hopens (v : List Token) : startsWithMark "(" (.symbol "(" :: v) := rfl
    refine Blind.append (hfree.blind ht ha hy hz rfl (fun _ => ?_) rules)
      (Blind.append (s := [t]) (ht.blind hy hz rfl fun w hw hbehind => ?_)
        (Blind.append (s := [.symbol "("]) ?_ (Blind.append ?_ ?_)))
    · rw [cons_append, cons_append, chain?_of_not_isWord rfl, chain?_of_not_isWord rfl]
    · have hconstruct : w.isAny constructs := by simpa [hw] using hcall hbehind
      have hdot : w.value.toList.contains '.' = false :=
        contains_dot_eq_false (by simpa [Word.isAny] using hconstruct) (by decide)
      obtain ⟨rfl, hquote⟩ := of_plainWord?_eq_some hw
      have hany : isAny constructs (.word w) := by
        simpa [isAny, hw] using hconstruct
      unfold callsProcedure
      rw [cons_append, cons_append, hopens, hopens, hany, hdot]
      simp
    · exact .singleton fun st plain => step_of_plainWord?_eq_none rfl rfl ..
    · have hstop : Stop g (.symbol ")") := .mark (by decide) htop
      exact hstop.blind (hdepth 0) hfollows follows_nil (hmark "(")
        (fun hassigns => by cases hassigns)
        rules _
    · exact .singleton fun st plain => step_of_plainWord?_eq_none rfl rfl ..

end SqlOutline.Harvest
