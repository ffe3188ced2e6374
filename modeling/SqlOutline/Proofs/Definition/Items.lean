import Mathlib.Data.List.TakeWhile
import SqlOutline.Proofs.Definition.Outline

/-!
# Items of a table

The items between the commas of a table are read one by one from their lexemes.

## Main definitions

* `isPlainItem`, `mayPrecede` — items that are read as what their marks are, and their order.

## Main results

* `exists_items` — the columns and constraints of a table are its items.
* `outline_readItem` — a plain item is read as the column or constraint that it is.
-/

namespace SqlOutline

open Option Bool List Text Sql Lexeme Mark

/-! ## Plain items -/

def isKeyItem (item : List Lexeme) : Bool :=
  (constraintBody item).head?.any (·.isAnyWord ["PRIMARY", "UNIQUE", "FOREIGN"])

def firstParens (ls : List Lexeme) : List Lexeme :=
  (bracketed (ls.dropWhile fun l => !l.isSymbol '(')).1

def isPlainName (l : Lexeme) : Bool := l.isName && l.plain?.isSome

def isPlainKey (ls : List Lexeme) : Bool :=
  ls.all fun l => l.isSymbol ',' || (isPlainName l && !l.isAnyWord ["ASC", "DESC"])

/-- Whether an item is a column with a name that no constraint starts with, which shows no
constraint where a name stands or in parentheses, or a constraint that every grammar knows, with
names as its columns. -/
def isPlainItem (item : List Lexeme) : Bool :=
  if isTableConstraint item then
    item.head?.any (·.isAnyWord startWords) &&
      (!isKeyItem item || isPlainKey (firstParens (constraintBody item)))
  else item.head?.any isPlainName && isQuiet true 0 (item.tail.map mark)

def labelledNames (item : List Lexeme) : List String :=
  match constraintBody item with
  | [] => []
  | head :: body =>
    let names := namesInParens (head :: body)
    if head.isWord "PRIMARY" || head.isWord "FOREIGN" then names
    else if head.isWord "UNIQUE" then if names.length = 1 then names else []
    else []

/-- Whether an item may stand before another: it is no constraint on a column that the other one
is, and not both of them are primary keys. -/
def mayPrecede (source : Text) (a b : List Lexeme) : Bool :=
  !isTableConstraint a || isTableConstraint b ||
    (readColumn? source b).all fun (column, _) =>
      (labelledNames a).all (!column.isNamed ·) &&
        !((constraintBody a).head?.any (·.isWord "PRIMARY") && column.labels.contains .primaryKey)

/-! ## Lexemes by their marks -/

def IsItem (item : List Lexeme) (part : TablePart) : Prop := PartMarks part (item.map mark)

section Marks

variable {l : Lexeme} {ls body item : List Lexeme} {ms : List Mark} {columns : List Ident}

lemma Lexeme.isSymbol_of_mark {c : Char} (hc : c ∈ punctuation)
    (h : l.mark = .symbol c) : l.isSymbol c := (l.mark_eq_symbol_iff hc).mp h

/-- **The columns and constraints of a table** are the items between its commas. -/
lemma exists_items {parts : List TablePart} (h : PartListMarks parts ms) (hls : ls.map mark = ms) :
    nesting? true 0 ms = some 0 ∧ List.Forall₂ IsItem (itemsFrom 0 ls) parts := by
  induction h generalizing ls with
  | last hpart hn =>
    subst hls
    refine ⟨nesting?_true hn, ?_⟩
    rw [itemsFrom_eq_singleton hn]
    exact .cons hpart .nil
  | @cons part parts ms rest hpart hn _ ih =>
    obtain ⟨item, behind, rfl, rfl, hbehind⟩ := map_eq_append_iff.mp hls
    obtain ⟨comma, ls, rfl, hcomma, hls⟩ := map_eq_cons_iff.mp hbehind
    obtain ⟨hnesting, hitems⟩ := ih hls
    refine ⟨?_, ?_⟩
    · rw [nesting?_append, nesting?_true hn]
      exact hnesting
    · rw [itemsFrom_append_comma hn (isSymbol_of_mark (by decide) hcomma)]
      exact .cons hpart hitems

lemma filterMap_plain?_of_isPlainKey (h : isPlainKey ls) :
    (∀ m ∈ ls.map mark, m = .symbol ',' ∨ m.name?.isSome) ∧
      (ls.filter fun l => l.isName && !l.isAnyWord ["ASC", "DESC"]).filterMap plain? =
        (ls.map mark).filterMap name? := by
  induction ls with
  | nil => exact ⟨by simp, rfl⟩
  | cons l ls ih =>
    rw [isPlainKey, all_cons, and_eq_true, or_eq_true] at h
    obtain ⟨hl, hls⟩ := h
    obtain ⟨hmarks, hnames⟩ := ih hls
    rw [map_cons, forall_mem_cons]
    rcases hl with hcomma | hname
    · have hmark := (l.mark_eq_symbol_iff (by decide)).mpr hcomma
      have hnone : l.isName = false := by
        rw [← l.isName_mark, hmark]
        rfl
      refine ⟨⟨.inl hmark, hmarks⟩, ?_⟩
      rw [filter_cons_of_neg (by simp [hnone]), hnames, hmark, filterMap_cons_none rfl]
    · rw [isPlainName, and_eq_true, and_eq_true] at hname
      obtain ⟨⟨hisName, hsome⟩, horder⟩ := hname
      obtain ⟨name, hplain⟩ := isSome_iff_exists.mp hsome
      have hmark : l.mark.name? = some name := by rw [l.name?_mark hisName, hplain]
      refine ⟨⟨.inr (by simp [hmark]), hmarks⟩, ?_⟩
      rw [filter_cons_of_pos (by simp [hisName, horder]), filterMap_cons_some hplain,
        filterMap_cons_some hmark, hnames]

lemma namesInParens_eq (hkey : HoldsKey (body.map mark) columns)
    (hplain : isPlainKey (firstParens body)) :
    (namesInParens body).map some = columns.map Ident.plain? := by
  obtain ⟨before, names, behind, hmarks, hbefore, hnesting, hnames⟩ := hkey
  obtain ⟨front, ls₁, rfl, rfl, h₁⟩ := map_eq_append_iff.mp hmarks
  obtain ⟨first, ls₂, rfl, hfirst, h₂⟩ := map_eq_cons_iff.mp h₁
  obtain ⟨inner, ls₃, rfl, rfl, h₃⟩ := map_eq_append_iff.mp h₂
  obtain ⟨last, ls, rfl, hlast, -⟩ := map_eq_cons_iff.mp h₃
  have hdrop : (front ++ first :: (inner ++ last :: ls)).dropWhile (fun l => !l.isSymbol '(') =
      first :: (inner ++ last :: ls) := by
    rw [dropWhile_append_of_pos, dropWhile_cons_of_neg]
    · simp [isSymbol_of_mark (by decide) hfirst]
    · intro l hl
      have hne := hbefore l.mark (mem_map_of_mem hl)
      rw [ne_eq, l.mark_eq_symbol_iff (by decide)] at hne
      simpa using hne
  have hinner : firstParens (front ++ first :: (inner ++ last :: ls)) = inner := by
    rw [firstParens, hdrop, bracketed_eq (isSymbol_of_mark (by decide) hfirst) hnesting
      (isSymbol_of_mark (by decide) hlast)]
  rw [hinner] at hplain
  obtain ⟨hmarks, hplainNames⟩ := filterMap_plain?_of_isPlainKey hplain
  have hdef (ls : List Lexeme) : namesInParens ls =
      ((firstParens ls).filter fun l => l.isName && !l.isAnyWord ["ASC", "DESC"]).filterMap
        plain? := rfl
  rw [← hnames hmarks, ← hplainNames, hdef, hinner]

end Marks

/-! ## Constraints -/

section Constraint

variable {l : Lexeme} {body item : List Lexeme} {columns : List Ident} {names : List String}
  {k : String} {c : TableConstraint}

lemma filterMap_plain?_eq
    (h : names.map some = columns.map Ident.plain?) : columns.filterMap Ident.plain? = names := by
  have hid := congrArg (filterMap id) h
  simpa [filterMap_map] using hid.symm

lemma labelled_unique (h : names.map some = columns.map Ident.plain?) :
    (TableConstraint.unique columns).labelled = if names.length = 1 then names else [] := by
  match columns, names with
  | [], [] => rfl
  | [c], [name] =>
    have hname : some name = c.plain? := head_eq_of_cons_eq h
    rw [TableConstraint.labelled, ← hname]
    rfl
  | _ :: _ :: _, _ :: _ :: _ => rfl
  | [], _ :: _ | [_], [] | [_], _ :: _ :: _ | _ :: _ :: _, [] | _ :: _ :: _, [_] => simp at h

lemma Table.addUnique_eq (t : Table) (names : List String) :
    t.addUnique names = t.addUnique (if names.length = 1 then names else []) := by
  match names with
  | [] | [_] | _ :: _ :: _ => rfl

lemma Lexeme.isWord_of_mark {j : String} (hj : l.mark.isWord j)
    (hk : isSpelling k) : l.isWord k = (j == k) := by
  rw [← l.isWord_mark hk]
  obtain ⟨name, hl⟩ := Mark.isWord_iff.mp hj
  rw [hl]
  rfl

lemma isWord_key {j : String} (hj : l.mark.isWord j) :
    l.isWord "PRIMARY" = (j == "PRIMARY") ∧ l.isWord "FOREIGN" = (j == "FOREIGN") ∧
      l.isWord "UNIQUE" = (j == "UNIQUE") :=
  ⟨l.isWord_of_mark hj (by decide), l.isWord_of_mark hj (by decide),
    l.isWord_of_mark hj (by decide)⟩

lemma Lexeme.isAnyWord_of_mark (hk : l.mark.isWord k)
    {ks : List String} (hks : ks.all isSpelling) (hmem : k ∈ ks) :
    l.isAnyWord ks := by
  rw [← l.isAnyWord_mark hks, isAnyWord_of_isWord hk]
  exact contains_iff_mem.mpr hmem

lemma outline_readForeignKey (source : Text)
    (h : item.any (·.isWord "REFERENCES")) (columns : List String) (table : Table) :
    (readForeignKey source item columns table).outline =
      columns.foldl (·.labelColumn .foreignKey ·) table.outline := by
  unfold readForeignKey
  split
  next hnone =>
    rw [dropWhile_eq_nil_iff] at hnone
    obtain ⟨l, hl, hword⟩ := any_eq_true.mp h
    simpa [hword] using hnone l hl
  next behind _ =>
    split
    · exact table.outline_addForeignKey _
    · exact table.outline_foldl_labelColumn _ _

lemma namesInParens_of_isWord {head : Lexeme}
    (hk : head.mark.isWord k) (hmem : k ∈ ["PRIMARY", "UNIQUE", "FOREIGN"])
    (hbody : constraintBody item = head :: body) (hkey : HoldsKey (body.map mark) columns)
    (hplain : isKeyItem item → isPlainKey (firstParens (constraintBody item))) :
    (namesInParens (head :: body)).map some = columns.map Ident.plain? := by
  have hne : ∀ m ∈ [head.mark], m ≠ .symbol '(' := by
    obtain ⟨name, hhead⟩ := isWord_iff.mp hk
    simp [hhead]
  refine namesInParens_eq (hkey.append_left hne) (hbody ▸ hplain ?_)
  rw [isKeyItem, hbody]
  exact isAnyWord_of_mark hk (by decide) hmem

lemma labelled_eq_labelledNames (hmarks : ConstraintMarks c ((constraintBody item).map mark))
    (hplain : isKeyItem item → isPlainKey (firstParens (constraintBody item))) :
    c.labelled = labelledNames item ∧
      c.isPrimary = (constraintBody item).head?.any (·.isWord "PRIMARY") := by
  unfold labelledNames
  cases hbody : constraintBody item with
  | nil =>
    rw [hbody] at hmarks
    cases hmarks
  | cons head body =>
    rw [hbody, map_cons] at hmarks
    rw [head?_cons, any_some]
    dsimp only
    cases hmarks with
    | primaryKey hj hkey =>
      rw [(isWord_key hj).1, if_pos (by simp)]
      exact ⟨filterMap_plain?_eq (namesInParens_of_isWord hj (by decide) hbody hkey hplain), rfl⟩
    | unique hj hkey =>
      obtain ⟨hprimary, hforeign, hunique⟩ := isWord_key hj
      rw [hprimary, hforeign, hunique]
      exact ⟨labelled_unique (namesInParens_of_isWord hj (by decide) hbody hkey hplain), rfl⟩
    | foreignKey hj hkey hrefers =>
      rw [(isWord_key hj).1, (isWord_key hj).2.1, if_pos (by simp)]
      exact ⟨filterMap_plain?_eq (namesInParens_of_isWord hj (by decide) hbody hkey hplain), rfl⟩
    | check hj =>
      obtain ⟨hprimary, hforeign, hunique⟩ := isWord_key hj
      rw [hprimary, hforeign, hunique]
      exact ⟨rfl, rfl⟩

/-- **A constraint** with names as its columns is read as the constraint that it is. -/
lemma outline_readConstraint (source : Text)
    (hmarks : ConstraintMarks c ((constraintBody item).map mark))
    (hplain : isKeyItem item → isPlainKey (firstParens (constraintBody item)))
    (table : Table) : (readConstraint source item table).outline = table.outline.restrict c := by
  have hlabelled := (labelled_eq_labelledNames hmarks hplain).1
  have hsuffix : constraintBody item <:+ item := by
    unfold constraintBody
    split
    · exact drop_suffix 2 item
    · exact suffix_refl item
  unfold labelledNames at hlabelled
  unfold readConstraint Table.restrict
  cases hbody : constraintBody item with
  | nil =>
    rw [hbody] at hmarks
    cases hmarks
  | cons head body =>
    rw [hbody] at hmarks hsuffix hlabelled
    rw [map_cons] at hmarks
    dsimp only at hlabelled ⊢
    cases hmarks with
    | primaryKey hj _ =>
      rw [(isWord_key hj).1] at hlabelled ⊢
      rw [hlabelled]
      exact table.outline_addPrimaryKey _
    | unique hj _ =>
      obtain ⟨hprimary, hforeign, hunique⟩ := isWord_key hj
      rw [hprimary, hforeign, hunique] at hlabelled ⊢
      rw [hlabelled]
      exact (table.outline_addUnique _).trans (Table.addUnique_eq _ _)
    | foreignKey hj _ hrefers =>
      have hitem : item.any (·.isWord "REFERENCES") := by
        obtain ⟨m, hm, hrefers⟩ := any_eq_true.mp hrefers
        obtain ⟨l, hl, rfl⟩ := mem_map.mp hm
        rw [l.isWord_mark (by decide)] at hrefers
        exact any_eq_true.mpr ⟨l, hsuffix.subset (mem_cons_of_mem head hl), hrefers⟩
      rw [(isWord_key hj).1, (isWord_key hj).2.1] at hlabelled ⊢
      rw [hlabelled]
      exact outline_readForeignKey source hitem _ table
    | check hj =>
      obtain ⟨hprimary, hforeign, hunique⟩ := isWord_key hj
      rw [hprimary, hforeign, hunique]
      rfl

end Constraint

/-! ## Items -/

variable {l : Lexeme} {item : List Lexeme} {ms : List Mark} {c : ColumnDef}

lemma ConstraintMarks.exists_word {c : TableConstraint} (h : ConstraintMarks c ms) :
    ∃ m rest k, ms = m :: rest ∧ m.isWord k ∧ k ∈ bodyWords := by
  cases h with
  | primaryKey hm _ => exact ⟨_, _, _, rfl, hm, by decide⟩
  | unique hm _ => exact ⟨_, _, _, rfl, hm, by decide⟩
  | foreignKey hm _ _ => exact ⟨_, _, _, rfl, hm, by decide⟩
  | check hm => exact ⟨_, _, _, rfl, hm, by decide⟩

lemma constraintMarks_of_isItem {c : TableConstraint}
    (h : IsItem item (.constraint c)) : isTableConstraint item ∧
      ConstraintMarks c ((constraintBody item).map mark) := by
  unfold IsItem at h
  generalize hms : item.map mark = ms at h
  cases h with
  | constraint hc =>
    obtain ⟨m, rest, k, rfl, hm, hk⟩ := hc.exists_word
    obtain ⟨first, item, rfl, rfl, rfl⟩ := map_eq_cons_iff.mp hms
    have hsub : bodyWords ⊆ constraintWords := by decide
    have hunnamed : constraintBody (first :: item) = first :: item := by
      rw [constraintBody, head?_cons, any_some,
        isWord_of_mark hm (k := "CONSTRAINT") (by decide), if_neg]
      have hne : k ≠ "CONSTRAINT" := by
        rintro rfl
        revert hk
        decide
      simpa using hne
    rw [hunnamed]
    exact ⟨isAnyWord_of_mark hm (by decide) (hsub hk), hc⟩
  | named hm hc =>
    obtain ⟨first, item, rfl, rfl, hrest⟩ := map_eq_cons_iff.mp hms
    obtain ⟨second, item, rfl, rfl, rfl⟩ := map_eq_cons_iff.mp hrest
    have hnamed : constraintBody (first :: second :: item) = item := by
      rw [constraintBody, head?_cons, any_some,
        isWord_of_mark hm (k := "CONSTRAINT") (by decide), if_pos (by decide)]
      rfl
    rw [hnamed]
    exact ⟨isAnyWord_of_mark hm (by decide) (by decide), hc⟩

lemma isPlainKey_of_isPlainItem (hitem : isTableConstraint item)
    (hplain : isPlainItem item) (hkey : isKeyItem item) :
    isPlainKey (firstParens (constraintBody item)) := by
  rw [isPlainItem, if_pos hitem, hkey] at hplain
  exact (and_eq_true_iff.mp hplain).2

lemma exists_of_column (h : IsItem item (.column c)) :
    ∃ first rest, item = first :: rest ∧ first.mark.Names c.name ∧
      first.isAnyWord startWords = false ∧
        Shows true ⟨true, 0⟩ ⟨false, 0⟩ (rest.map mark) (optionLabels c.options) := by
  unfold IsItem at h
  generalize hms : item.map mark = ms at h
  cases h with
  | column hname hstart hshows =>
    obtain ⟨first, rest, rfl, rfl, rfl⟩ := map_eq_cons_iff.mp hms
    rw [first.isAnyWord_mark (by decide)] at hstart
    exact ⟨first, rest, rfl, hname, hstart, hshows⟩

lemma isTableConstraint_of_column (hmarks : IsItem item (.column c))
    (h : isTableConstraint item → item.head?.any (·.isAnyWord startWords)) :
    isTableConstraint item = false := by
  refine eq_false_iff.mpr fun hconstraint => ?_
  obtain ⟨first, rest, rfl, -, hstart, -⟩ := exists_of_column hmarks
  have hfirst : first.isAnyWord startWords := h hconstraint
  rw [hstart] at hfirst
  cases hfirst

lemma startWords_of_isPlainItem (hplain : isPlainItem item)
    (h : isTableConstraint item) : item.head?.any (·.isAnyWord startWords) := by
  rw [isPlainItem, if_pos h, and_eq_true] at hplain
  exact hplain.1

/-- **A column** is read with its name, its type and the constraints that its marks show. -/
lemma exists_readColumn? (source : Text) (hmarks : IsItem item (.column c))
    (hname : item.head?.any isPlainName) :
    ∃ name key, (item.head?.bind plain?) = some name ∧ c.name.plain? = some name ∧
      readColumn? source item =
        some ((labelsIn (item.tail.map mark)).foldl Column.constrain
          { name, dataType := ownType? source item }, key) := by
  obtain ⟨first, rest, rfl, hnames, -⟩ := exists_of_column hmarks
  rw [head?_cons, any_some, isPlainName, and_eq_true] at hname
  obtain ⟨hisName, hsome⟩ := hname
  obtain ⟨name, hfirst⟩ := isSome_iff_exists.mp hsome
  have hplain : c.name.plain? = some name := by
    rcases hnames with hother | ⟨-, hname⟩
    · rw [← first.isName_mark, hother] at hisName
      cases hisName
    · rw [← hname, first.name?_mark hisName, hfirst]
  obtain ⟨key, hread⟩ := readColumn?_eq source hisName hfirst rest
  exact ⟨name, key, hfirst, hplain, hread⟩

/-- **A plain column** is read as the column that it is. -/
lemma untyped_readColumn? (source : Text)
    (hmarks : IsItem item (.column c)) (hplain : isPlainItem item) :
    ∃ column key, readColumn? source item = some (column, key) ∧ column.untyped = c.outline := by
  have hitem := isTableConstraint_of_column hmarks (startWords_of_isPlainItem hplain)
  rw [isPlainItem, if_neg (by simp [hitem]), and_eq_true] at hplain
  obtain ⟨name, key, -, hname, hread⟩ := exists_readColumn? source hmarks hplain.1
  obtain ⟨first, rest, rfl, -, -, hshows⟩ := exists_of_column hmarks
  refine ⟨_, key, hread, ?_⟩
  rw [tail_cons, hshows.labelsIn_eq hplain.2, Column.untyped_foldl_constrain,
    ColumnDef.outline, hname]
  rfl

/-- **A plain item** is read as the column or constraint that it is. -/
lemma outline_readItem (source : Text) {part : TablePart}
    (hmarks : IsItem item part) (hplain : isPlainItem item) (table : Table) :
    (readItem source table item).outline = table.outline.addPart part := by
  unfold readItem
  cases part with
  | constraint c =>
    obtain ⟨hitem, hc⟩ := constraintMarks_of_isItem hmarks
    rw [if_pos hitem]
    exact outline_readConstraint source hc (isPlainKey_of_isPlainItem hitem hplain) table
  | column c =>
    obtain ⟨column, key, hread, houtline⟩ := untyped_readColumn? source hmarks hplain
    have hitem := isTableConstraint_of_column hmarks (startWords_of_isPlainItem hplain)
    rw [if_neg (by simp [hitem]), hread]
    dsimp only
    rw [Table.outline_addColumn, houtline]
    rfl

/-- **A plain item has the place** among others that the column or constraint has that it is. -/
lemma mayPrecede_of_items {source : Text} {a b : List Lexeme} {p q : TablePart}
    (ha : IsItem a p) (hb : IsItem b q) (hplainA : isPlainItem a)
    (hplainB : isPlainItem b) (h : mayPrecede source a b) : p.MayPrecede q := by
  match p, q with
  | .column _, _ | .constraint _, .constraint _ => trivial
  | .constraint k, .column c =>
    obtain ⟨hitem, hk⟩ := constraintMarks_of_isItem ha
    obtain ⟨hlabelled, hprimary⟩ :=
      labelled_eq_labelledNames hk (isPlainKey_of_isPlainItem hitem hplainA)
    obtain ⟨column, key, hread, houtline⟩ := untyped_readColumn? source hb hplainB
    rw [mayPrecede, hitem, isTableConstraint_of_column hb (startWords_of_isPlainItem hplainB),
      hread, ← hlabelled, ← hprimary] at h
    obtain ⟨hnames, hkeys⟩ := and_eq_true_iff.mp h
    refine ⟨fun name hname => ?_, fun hk => ?_⟩
    · rw [← houtline]
      simpa using all_eq_true.mp hnames name hname
    · rw [← houtline]
      simpa [hk] using hkeys

end SqlOutline
