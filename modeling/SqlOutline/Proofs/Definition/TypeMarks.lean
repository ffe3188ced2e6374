import SqlOutline.Proofs.Definition.Passing

/-!
# The marks of data types

The tokens of a data type close their parentheses and show no constraint.

## Main results

* `passes_dataTypeUpTo` — a data type stands where a name does, as one that is not built in is one.
-/

namespace SqlOutline

open Sql Reader Grammar

variable {w : Bool} {U : List Token} {p : Site} {d : Nat} {g : Grammar}

/-! ## Arguments of types -/

lemma stays_precision? : Stays w U d precision? :=
  stays_open (stays_uint.bind fun _ => closes_paren.map) (passes_pure _)

lemma stays_precisionScale? : Stays w U d precisionScale? := by
  refine stays_open (stays_uint.bind fun _ => stays_comma?.bind fun _ => ?_) (passes_pure _)
  refine passes_ite (stays_uint.bind fun _ => (passes_pure _).bind fun _ => ?_)
    ((passes_pure _).bind fun _ => ?_)
  · exact closes_paren.map
  · exact closes_paren.map

lemma stays_characterLength? : Stays w U d characterLength? := by
  have hend (inner : String) : Closes w U d (do symbol ")"; return "(" ++ inner ++ ")") :=
    closes_paren.map
  refine stays_open ((stays_keyword? (by decide)).bind fun _ => ?_) (passes_pure _)
  refine passes_ite ((passes_pure _).bind fun _ => hend _) (stays_uint.bind fun _ => ?_)
  refine (stays_anyKeyword? (by decide)).bind fun o => ?_
  cases o with
  | none => exact (passes_pure _).bind fun _ => hend _
  | some k => exact (passes_pure _).bind fun _ => hend _

variable (dialect : Dialect) (n : Nat)

lemma closes_modifiersUpTo : Closes w U d (modifiersUpTo n) := by
  induction n with
  | zero => exact passes_fail
  | succ n ih =>
    refine passes_next fun o => ?_
    cases o with
    | none => exact .inl rfl
    | some t =>
      cases t with
      | word v => exact .inr ⟨_, _, rfl, shows_inner_word v, ih.map⟩
      | number s long => exact .inr ⟨_, _, rfl, shows_other, ih.map⟩
      | quoted s => exact .inr ⟨_, _, rfl, shows_other, ih.map⟩
      | symbol s =>
        by_cases hcomma : s = ","
        · subst hcomma
          exact .inr ⟨_, _, rfl, shows_punctuation ',' rfl, ih⟩
        · by_cases hclose : s = ")"
          · subst hclose
            exact .inr ⟨_, _, rfl, shows_punctuation ')' rfl, passes_pure _⟩
          · exact .inl (by simp [hcomma, hclose])
      | _ => exact .inl rfl

lemma passes_customType (hp : w → p.named ∨ 0 < p.depth) :
    Passes w U p customType fun _ => ⟨false, p.depth⟩ := by
  refine (passes_objectName hp).bind fun name => stays_open ?_ (passes_pure _)
  exact looks_bound.passes.bind fun n => (closes_modifiersUpTo n).map

lemma stays_timeZone? : Stays w U d timeZone? := by
  refine (stays_anyKeyword? (by decide)).bind fun o => ?_
  cases o with
  | none => exact passes_pure _
  | some k => exact (stays_keywords (by decide)).map

lemma stays_stringValues : Stays w U d stringValues := by
  unfold stringValues
  refine (Stays.parens (Stays.commaSeparated ?_)).map
  refine passes_next fun o => ?_
  cases o with
  | none => exact .inl rfl
  | some t =>
    cases t with
    | quoted s => exact .inr ⟨_, _, rfl, shows_other, passes_pure s⟩
    | _ => exact .inl rfl

lemma stays_enumValues : Stays w U d (enumValues dialect) := by
  refine (Stays.parens (Stays.commaSeparated ?_)).map
  refine (stays_literalString dialect).bind fun _ => ?_
  refine (stays_symbol? (by decide)).bind fun _ => ?_
  exact passes_ite ((stays_signedNumber dialect).map) (passes_pure _)

lemma stays_fineTime : Stays w U (d + 1) (fineTime dialect) := by
  refine stays_uint.bind fun _ => stays_comma?.bind fun _ => ?_
  refine passes_ite ((stays_literalString dialect).bind fun _ => (passes_pure _).bind fun _ => ?_)
    ((passes_pure _).bind fun _ => ?_)
  · exact passes_pure _
  · exact passes_pure _

lemma stays_characterType (k : String) : Stays w U d (do
    if (← keyword? "VARYING") then return some (k ++ " VARYING" ++ (← characterLength?))
    else if (← keywords? ["LARGE", "OBJECT"]) then
      return some (k ++ " LARGE OBJECT" ++ (← precision?))
    else return some (k ++ (← characterLength?))) := by
  refine (stays_keyword? (by decide)).bind fun _ => ?_
  refine passes_ite (stays_characterLength?.map) ?_
  refine (stays_keywords? (by decide)).bind fun _ => ?_
  exact passes_ite (stays_precision?.map)
    (stays_characterLength?.map)

/-! ## Types -/

lemma stays_simpleType? (k : String) : Stays w U d (simpleType? dialect k) := by
  unfold simpleType?
  refine passes_ite (passes_pure _) ?_
  split
  · exact passes_pure _
  refine passes_ite (stays_precision?.map) ?_
  refine passes_ite (stays_precisionScale?.map) ?_
  refine passes_ite ?_ ?_
  · exact stays_precision?.bind fun _ => (stays_keyword? (by decide)).map
  split
  · exact (stays_keyword? (by decide)).map
  · exact stays_characterLength?.map
  · exact stays_characterLength?.map
  · exact stays_characterType _
  · exact stays_characterType _
  · exact stays_precision?.bind fun _ => stays_timeZone?.map
  · exact stays_precision?.bind fun _ => stays_timeZone?.map
  · exact stays_precision?.map
  · exact stays_precision?.map
  · exact (Stays.parens (stays_fineTime dialect)).map
  · exact (stays_enumValues dialect).map
  · exact (stays_enumValues dialect).map
  · exact (stays_enumValues dialect).map
  · exact stays_stringValues.map
  · exact (Stays.parens stays_uint).map
  · exact passes_pure _

lemma stays_arraySuffix (t : DataType) (n : Nat) : Stays w U d (arraySuffix dialect t n) := by
  induction n generalizing t with
  | zero => exact passes_pure _
  | succ n ih =>
    refine (stays_symbol? (by decide)).bind fun _ => passes_ite ?_ (passes_pure _)
    refine passes_ite ?_ ((passes_pure _).bind fun _ => ?_)
    · refine stays_uint.attempt.bind fun _ => ?_
      exact (stays_symbol (by decide)).bind fun _ => ih _
    · exact (stays_symbol (by decide)).bind fun _ => ih _

lemma stays_closeAngle (closed : Bool) : Stays w U d (closeAngle closed) := by
  refine passes_ite (passes_pure _) ((stays_symbol? (by decide)).bind fun _ => ?_)
  exact passes_ite (passes_pure _) ((stays_symbol (by decide)).map)

lemma passes_angle : Passes w U ⟨false, d⟩ (symbol "<") fun _ => ⟨true, d⟩ :=
  (passes_symbol? (shows_punctuation '<' (e := d) rfl)).must

lemma takesAt_elementType {half : Reader Half} {v : Word} {s : Input}
    (hg : g.dialect = .postgresql) (hp : w → p.named ∨ 0 < p.depth)
    (hhalf : Passes w U ⟨true, p.depth⟩ half fun _ => ⟨false, p.depth⟩) (hs : s.rest <:+ U)
    (hv : s.rest.head? = some (.word v)) :
    TakesAt s (elementType g half v) fun _ x => Shows w p ⟨false, p.depth⟩ (marksOf x) [] := by
  obtain ⟨tokens, hierarchical⟩ := s
  obtain ⟨ts, rfl⟩ : ∃ ts, tokens = .word v :: ts := List.head?_eq_some_iff.mp hv
  have hts : ts <:+ U := (List.suffix_cons _ ts).trans hs
  have hfirst : Shows w p ⟨false, p.depth⟩ (Token.word v).marks [] := shows_word v hp
  intro t s' h
  -- what a reader takes behind the first word is put behind it
  have hbehind {β : Type} {r : Reader β} {b : β} (hr : Stays w U p.depth r)
      (h : r ⟨ts, hierarchical⟩ = .ok (b, s')) :
      ∃ x, .word v :: ts = x ++ s'.rest ∧ Shows w p ⟨false, p.depth⟩ (marksOf x) [] := by
    obtain ⟨y, hy, hshows⟩ := hr _ hts b s' h
    exact ⟨.word v :: y, by rw [List.cons_append, ← hy], hfirst.append hshows⟩
  obtain ⟨before, _, hbefore, h⟩ := bind_eq_ok.mp h
  cases hbefore
  obtain ⟨_, _, hskip, h⟩ := bind_eq_ok.mp h
  cases hskip
  by_cases harray : v.keyword = "ARRAY"
  · rw [if_pos harray] at h
    refine hbehind ?_ h
    exact passes_angle.bind fun _ => hhalf.bind fun _ => (stays_closeAngle _).bind fun _ =>
      passes_pure _
  · rw [if_neg harray] at h
    obtain ⟨o, s₁, ho, h⟩ := bind_eq_ok.mp h
    cases o with
    | some text =>
      cases h
      exact hbehind (stays_simpleType? _ _) ho
    | none =>
      have hplsql : g.dialect ≠ .plsql := by simp [hg]
      dsimp only at h
      rw [if_neg hplsql] at h
      obtain ⟨_, _, hnone, h⟩ := bind_eq_ok.mp h
      cases hnone
      obtain ⟨_, _, hset, h⟩ := bind_eq_ok.mp h
      cases hset
      obtain ⟨type, _, htype, h⟩ := bind_eq_ok.mp h
      cases h
      exact passes_customType hp ⟨_, s₁.hierarchical⟩ hs type _ htype

/-- **A data type** stands where a name does: one that is not built in is a name. -/
lemma passes_dataTypeUpTo (hg : g.dialect = .postgresql)
    (hp : w → p.named ∨ 0 < p.depth) (n : Nat) :
    Passes w U p (dataTypeUpTo g n) fun _ => ⟨false, p.depth⟩ := by
  induction n generalizing p with
  | zero => exact passes_fail
  | succ n ih =>
    intro s hs
    have hhalf : Passes w U ⟨true, p.depth⟩ (do
        let inner ← dataTypeUpTo g n
        return (⟨inner.1.toPhrase, inner.2⟩ : Half)) fun _ => ⟨false, p.depth⟩ :=
      (ih (p := ⟨true, p.depth⟩) fun _ => .inl rfl).map
    have hsuffix (t : DataType × Bool) : Stays w U p.depth (do
        return (← arraySuffix g.dialect t.1 (← bound), t.2)) :=
      looks_bound.passes.bind fun n => (stays_arraySuffix _ _ n).map
    refine takesAt_peek fun o hv => ?_
    split
    next v =>
      refine (takesAt_elementType hg hp hhalf hs hv).bind fun t x s₁ hx hshows => ?_
      refine (hsuffix t s₁ (suffix_of_eq_append hs hx)).mono fun _ y hy => ?_
      rw [marksOf_append]
      exact hshows.append hy
    next => exact takes_fail s hs

lemma passes_dataType (hg : g.dialect = .postgresql)
    (hp : w → p.named ∨ 0 < p.depth) :
    Passes w U p (dataType g) fun _ => ⟨false, p.depth⟩ := by
  refine looks_bound.passes.bind fun n => (passes_dataTypeUpTo hg hp n).bind fun _ => ?_
  exact passes_ite passes_fail (passes_pure _)

end SqlOutline
