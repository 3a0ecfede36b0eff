import Markup.Proofs.Toml.Items

/-!
# What statements say

What the table that statements build up holds, read off the statements alone (`holds_build?_iff`): an
assignment says what stands at its key and that tables lead there, a header says that there is a table.
What is said is a set of facts, so neither the order of the statements nor the way a table is written
matters: a header with assignments below, keys with dots and a table in braces say the same
(`told_spelling`).

It goes by steps. A change of a table `Adds` facts; a change inside adds the same facts further down,
along each of the ways there (`Adds.within?`, `Adds.underHeader?`, `Adds.underKey?`); and from one
statement it is carried to all by induction. Arrays of tables, with a header in double brackets for each,
are left out: what they hold depends on the order of their headers.
-/

namespace Markup.Toml

/-! ### What stands at a path -/

/-- What stands at paths of names: a table, or an item of another kind. -/
abbrev Facts := List String → Option Item → Prop

/-- The item at a path. -/
def Item.at? : Item → List String → Option Item
  | item, [] => some item
  | .table _ t, name :: path => (Table.get? t name).bind fun item => item.at? path
  | _, _ :: _ => none

/-- An item, unless it is a table. -/
def Item.leaf : Item → Option Item
  | .table _ _ => none
  | item => some item

def Item.Holds (item : Item) : Facts := fun path x =>
  ∃ found, item.at? path = some found ∧ found.leaf = x

def Table.Holds (t : Table) : Facts := (Item.table .implied t).Holds

/-- There is a table at the root. -/
def AtRoot : Facts := fun path x => path = [] ∧ x = none

/-- Facts from the end of a path of keys on, and the tables that lead there. -/
def Below (F : Facts) : List Key → Facts
  | [] => F
  | key :: keys => fun path x =>
    AtRoot path x ∨ ∃ rest, path = key.name :: rest ∧ Below F keys rest x

/-- Nothing inside is an array of tables. -/
def Facts.Plain (F : Facts) : Prop := ∀ path members, ¬ F path (some (.tables members))

variable {t t' sub sub' : Table} {item : Item} {x : Option Item} {name : String} {key : Key}
  {path : List String} {keys : List Key} {shape : Shape} {F G : Facts}

theorem not_atRoot_cons : ¬ AtRoot (name :: path) x := fun h => List.cons_ne_nil _ _ h.1

theorem below_append (F : Facts) (keys keys' : List Key) :
    Below F (keys ++ keys') = Below (Below F keys') keys := by
  induction keys with
  | nil => rfl
  | cons key keys ih => simp only [List.cons_append, Below, ih]

theorem below_imp (h : ∀ path x, F path x → G path x) {keys : List Key} (hF : Below F keys path x) :
    Below G keys path x := by
  induction keys generalizing path with
  | nil => exact h path x hF
  | cons key keys ih => exact hF.imp_right fun ⟨rest, hrest, hF⟩ => ⟨rest, hrest, ih hF⟩

theorem below_congr (h : ∀ path x, F path x ↔ G path x) (keys : List Key) :
    Below F keys path x ↔ Below G keys path x :=
  ⟨below_imp fun path x => (h path x).mp, below_imp fun path x => (h path x).mpr⟩

theorem below_of_atRoot (hne : keys ≠ []) (h : AtRoot path x) : Below F keys path x := by
  cases keys with
  | nil => exact absurd rfl hne
  | cons key keys => exact .inl h

theorem below_root (h : F [] none) (keys : List Key) : Below F keys [] none := by
  cases keys with
  | nil => exact h
  | cons key keys => exact .inl ⟨rfl, rfl⟩

theorem below_or (F G : Facts) (keys : List Key) :
    Below (fun path x => F path x ∨ G path x) keys path x ↔
      Below F keys path x ∨ Below G keys path x := by
  constructor
  · intro h
    induction keys generalizing path with
    | nil => exact h
    | cons key keys ih =>
      rcases h with h | ⟨rest, hrest, h⟩
      · exact .inl (.inl h)
      · exact (ih h).imp (fun h => .inr ⟨rest, hrest, h⟩) fun h => .inr ⟨rest, hrest, h⟩
  · rintro (h | h)
    · exact below_imp (fun _ _ => .inl) h
    · exact below_imp (fun _ _ => .inr) h

theorem Facts.Plain.below (h : F.Plain) (keys : List Key) : (Below F keys).Plain := by
  induction keys with
  | nil => exact h
  | cons key keys ih =>
    rintro path members (⟨-, hx⟩ | ⟨rest, -, hrest⟩)
    · cases hx
    · exact ih rest members hrest

theorem plain_atRoot : Facts.Plain AtRoot := by
  rintro path members ⟨-, hx⟩
  cases hx

theorem Facts.Plain.or (hF : F.Plain) (hG : G.Plain) : Facts.Plain fun path x => F path x ∨ G path x :=
  fun path members h => h.elim (hF path members) (hG path members)

/-- Nothing stands below an item that is no table. -/
theorem Item.holds_of_leaf (h : item.leaf = some item) :
    item.Holds path x ↔ path = [] ∧ x = some item := by
  cases path with
  | nil => simp [Holds, at?, h, eq_comm]
  | cons name path =>
    cases item with
    | table => cases h
    | _ => simp [Holds, at?]

theorem Item.plain_of_leaf (h : item.leaf = some item) (hitem : ∀ members, item ≠ .tables members) :
    item.Holds.Plain := by
  intro path members hholds
  obtain ⟨-, hx⟩ := (item.holds_of_leaf h).mp hholds
  exact hitem members (Option.some.inj hx).symm

theorem Item.holds_table (shape : Shape) (t : Table) :
    (Item.table shape t).Holds path x ↔ t.Holds path x := by
  cases path with
  | nil => simp [Table.Holds, Holds, at?, leaf]
  | cons name path => rfl

namespace Table

@[simp] theorem holds_nil : t.Holds [] x ↔ x = none := by
  simp [Holds, Item.Holds, Item.at?, Item.leaf, eq_comm]

theorem holds_cons :
    t.Holds (name :: path) x ↔ ∃ item, t.get? name = some item ∧ item.Holds path x := by
  simp only [Holds, Item.Holds, Item.at?, Option.bind_eq_some_iff]
  constructor
  · rintro ⟨found, ⟨item, hitem, hfound⟩, hx⟩
    exact ⟨item, hitem, found, hfound, hx⟩
  · rintro ⟨item, hitem, found, hfound, hx⟩
    exact ⟨found, ⟨item, hitem, hfound⟩, hx⟩

theorem holds_of_get? (h : t.get? name = some item) : t.Holds (name :: path) x ↔ item.Holds path x := by
  simp [holds_cons, h]

theorem holds_of_atRoot (h : AtRoot path x) : t.Holds path x := by
  obtain ⟨rfl, rfl⟩ := h
  exact holds_nil.mpr rfl

theorem holds_empty : Table.Holds [] path x ↔ AtRoot path x := by
  cases path with
  | nil => simp [AtRoot]
  | cons name path =>
    rw [holds_cons]
    simp [get?, AtRoot]

/-! ### Entries that are changed -/

theorem get?_add_self (hnone : t.get? key.name = none) (item : Item) :
    (t.add key item).get? key.name = some item := by
  unfold get? add at *
  rw [Option.map_eq_none_iff] at hnone
  simp [List.find?_append, hnone]

theorem get?_add_of_ne (t : Table) (item : Item) {other : String} (hne : other ≠ key.name) :
    (t.add key item).get? other = t.get? other := by
  unfold get? add
  rw [List.find?_append]
  simp [hne.symm]

theorem get?_set_self {old : Item} (h : t.get? name = some old) (item : Item) :
    (t.set name item).get? name = some item := by
  induction t with
  | nil => cases h
  | cons e t ih =>
    rw [get?_cons] at h
    show get? ((if e.1.name = name then (e.1, item) else e) :: Table.set t name item) name = some item
    rw [get?_cons]
    by_cases hname : e.1.name = name
    · simp [hname]
    · simp only [hname, if_false] at h ⊢
      exact ih h

theorem get?_set_of_ne (t : Table) (item : Item) {other : String} (hne : other ≠ name) :
    (t.set name item).get? other = t.get? other := by
  induction t with
  | nil => rfl
  | cons e t ih =>
    show get? ((if e.1.name = name then (e.1, item) else e) :: Table.set t name item) other = _
    rw [get?_cons, get?_cons, ih]
    by_cases hname : e.1.name = name
    · rw [if_pos hname, hname]
      simp [hne.symm]
    · rw [if_neg hname]

theorem get?_erase_of_ne (t : Table) {other : String} (hne : other ≠ name) :
    (t.erase name).get? other = t.get? other := by
  induction t with
  | nil => rfl
  | cons e t ih =>
    rw [get?_cons, erase, List.filter_cons]
    by_cases hname : e.1.name = name
    · simp only [hname, ne_eq, not_true, decide_false, Bool.false_eq_true, if_false, hne.symm]
      exact ih
    · simp only [hname, ne_eq, not_false_eq_true, decide_true, if_true]
      rw [get?_cons, ← erase, ih]

/-- One entry is changed, and the facts of its item with it. -/
theorem holds_of_entry (hitem : t'.get? key.name = some item)
    (hothers : ∀ other, other ≠ key.name → t'.get? other = t.get? other)
    (hF : ∀ path x, item.Holds path x ↔ t.Holds (key.name :: path) x ∨ F path x) :
    t'.Holds path x ↔ t.Holds path x ∨ Below F [key] path x := by
  cases path with
  | nil => simp [Below, AtRoot]
  | cons name path =>
    simp only [Below, not_atRoot_cons, false_or, List.cons.injEq]
    by_cases hname : name = key.name
    · subst hname
      rw [holds_of_get? hitem, hF]
      simp
    · rw [holds_cons, hothers name hname, ← holds_cons]
      simp [hname]

theorem holds_add (hnone : t.get? key.name = none) :
    (t.add key item).Holds path x ↔ t.Holds path x ∨ Below item.Holds [key] path x := by
  refine holds_of_entry (get?_add_self hnone item) (fun _ => t.get?_add_of_ne item) fun path x => ?_
  simp [holds_cons, hnone]

theorem holds_set {old : Item} (hold : t.get? key.name = some old)
    (hF : ∀ path x, item.Holds path x ↔ old.Holds path x ∨ F path x) :
    (t.set key.name item).Holds path x ↔ t.Holds path x ∨ Below F [key] path x := by
  refine holds_of_entry (get?_set_self hold item) (fun _ => t.get?_set_of_ne item) fun path x => ?_
  rw [holds_of_get? hold, hF]

/-! ### Changes of tables -/

/-- The change of a table in which no array of tables is adds facts to what it holds. -/
def Adds (change : Table → Option Table) (F : Facts) : Prop :=
  ∀ t t', t.Holds.Plain → change t = some t' → ∀ path x, t'.Holds path x ↔ t.Holds path x ∨ F path x

theorem plain_empty : (Table.Holds []).Plain := by
  intro path members h
  exact plain_atRoot path members (holds_empty.mp h)

theorem plain_of_get? (ht : t.Holds.Plain) (h : t.get? name = some item) : item.Holds.Plain :=
  fun path members hholds => ht (name :: path) members ((holds_of_get? h).mpr hholds)

theorem not_tables_of_plain {members : List (Span × Table)} (ht : t.Holds.Plain) :
    t.get? name ≠ some (.tables members) := fun h =>
  plain_of_get? ht h [] members ⟨_, rfl, rfl⟩

variable {change : Table → Option Table}

theorem Adds.plain (h : Adds change F) (hF : F.Plain) (ht : t.Holds.Plain)
    (hchange : change t = some t') : t'.Holds.Plain := fun path members hholds =>
  (ht.or hF) path members ((h t t' ht hchange path _).mp hholds)

theorem adds_insert? (key : Key) (item : Item) : Adds (insert? key item) (Below item.Holds [key]) := by
  intro t t' ht h path x
  unfold insert? at h
  split at h
  · next hnone =>
    cases h
    exact holds_add hnone
  · cases h

theorem adds_open? (key : Key) (span : Span) : Adds (open? key span) (Below AtRoot [key]) := by
  intro t t' ht h path x
  unfold open? at h
  split at h
  · next hnone =>
    cases h
    rw [holds_add hnone]
    refine or_congr_right (below_congr (fun path x => ?_) [key])
    rw [Item.holds_table, holds_empty]
  · next sub hsub =>
    cases h
    have hitem := get?_add_self (get?_erase_self t key.name) (.table (.header span) sub)
    have hothers (other : String) (hne : other ≠ key.name) :
        ((t.erase key.name).add key (.table (.header span) sub)).get? other = t.get? other := by
      rw [get?_add_of_ne _ _ hne, get?_erase_of_ne t hne]
    refine holds_of_entry hitem hothers fun path x => ?_
    rw [holds_of_get? hsub, Item.holds_table, Item.holds_table]
    exact (or_iff_left_of_imp holds_of_atRoot).symm
  · cases h

/-- A change of a table inside, in its place. -/
theorem Adds.setTable (h : Adds change F) (ht : t.Holds.Plain)
    (hsub : t.get? key.name = some (.table shape sub))
    (hchange : (do return t.set key.name (.table shape (← change sub))) = some t') :
    t'.Holds path x ↔ t.Holds path x ∨ Below F [key] path x := by
  obtain ⟨sub', hsub', hchange⟩ := Option.bind_eq_some_iff.mp hchange
  cases hchange
  refine holds_set hsub fun path x => ?_
  have hplain : sub.Holds.Plain := fun path members hholds =>
    plain_of_get? ht hsub path members ((Item.holds_table shape sub).mpr hholds)
  rw [Item.holds_table, Item.holds_table]
  exact h sub sub' hplain hsub' path x

/-- A new table that a change makes from nothing. -/
theorem Adds.addTable (h : Adds change F) (hroot : F [] none) (hnone : t.get? key.name = none)
    (hchange : (do return t.add key (.table shape (← change []))) = some t') :
    t'.Holds path x ↔ t.Holds path x ∨ Below F [key] path x := by
  obtain ⟨sub', hsub', hchange⟩ := Option.bind_eq_some_iff.mp hchange
  cases hchange
  rw [holds_add hnone]
  refine or_congr_right (below_congr (fun path x => ?_) [key])
  rw [Item.holds_table, h [] sub' plain_empty hsub' path x, holds_empty]
  refine or_iff_right_of_imp ?_
  rintro ⟨rfl, rfl⟩
  exact hroot

theorem Adds.within? (h : Adds change F) (keys : List Key) :
    Adds (within? change keys) (Below F keys) := by
  induction keys with
  | nil => exact h
  | cons key keys ih =>
    intro t t' ht hchange path x
    unfold Table.within? at hchange
    split at hchange
    · next hsub => exact ih.setTable ht hsub hchange
    · next htables => exact absurd htables (not_tables_of_plain ht)
    · cases hchange

theorem Adds.underHeader? (h : Adds change F) (hroot : F [] none) (keys : List Key) :
    Adds (underHeader? change keys) (Below F keys) := by
  induction keys with
  | nil => exact h
  | cons key keys ih =>
    intro t t' ht hchange path x
    unfold Table.underHeader? at hchange
    split at hchange
    · next hnone => exact ih.addTable (below_root hroot keys) hnone hchange
    · cases hchange
    · exact ih.setTable ht ‹_› hchange
    · next htables => exact absurd htables (not_tables_of_plain ht)
    · cases hchange

theorem Adds.underKey? (h : Adds change F) (hroot : F [] none) (keys : List Key) :
    Adds (underKey? change keys) (Below F keys) := by
  induction keys with
  | nil => exact h
  | cons key keys ih =>
    intro t t' ht hchange path x
    unfold Table.underKey? at hchange
    split at hchange
    · next hnone => exact ih.addTable (below_root hroot keys) hnone hchange
    · next hsub => exact ih.setTable ht hsub hchange
    · next hsub =>
      split at hchange
      · cases hchange
      · exact ih.setTable ht hsub hchange
    · next htables => exact absurd htables (not_tables_of_plain ht)
    · cases hchange

theorem adds_assign? (keys : List Key) (key : Key) (item : Item) :
    Adds (assign? keys key item) (Below item.Holds (keys ++ [key])) := by
  rw [below_append]
  exact (adds_insert? key item).underKey? (.inl ⟨rfl, rfl⟩) keys

end Table

/-! ### Values -/

/-- What a table with these entries holds. -/
def Listed (entries : List (List Key × Key × Item)) : Facts := fun path x =>
  AtRoot path x ∨ ∃ e ∈ entries, Below e.2.2.Holds (e.1 ++ [e.2.1]) path x

theorem Facts.Plain.listed {entries : List (List Key × Key × Item)}
    (h : ∀ e ∈ entries, e.2.2.Holds.Plain) : (Listed entries).Plain := by
  rintro path members (hroot | ⟨e, he, hbelow⟩)
  · exact plain_atRoot path members hroot
  · exact (h e he).below _ path members hbelow

/-- The table that entries make. -/
theorem holds_foldlM_assign? {entries : List (List Key × Key × Item)} (ht : t.Holds.Plain)
    (hentries : ∀ e ∈ entries, e.2.2.Holds.Plain)
    (h : entries.foldlM (fun t (path, k, v) => Table.assign? path k v t) t = some t') :
    t'.Holds path x ↔ t.Holds path x ∨ Listed entries path x := by
  induction entries generalizing t with
  | nil =>
    cases h
    simpa [Listed] using Table.holds_of_atRoot
  | cons e entries ih =>
    obtain ⟨hfirst, hrest⟩ := List.forall_mem_cons.mp hentries
    obtain ⟨t₁, hassign, h⟩ := Option.bind_eq_some_iff.mp h
    have hadds := Table.adds_assign? e.1 e.2.1 e.2.2
    rw [ih (hadds.plain (hfirst.below _) ht hassign) hrest h, hadds t t₁ ht hassign path x]
    simp only [Listed, List.exists_mem_cons_iff]
    tauto

theorem Grammar.Value.plain {limits : Limits} {s s' : Cursor} (h : Grammar.Value limits s item s') :
    item.Holds.Plain := by
  refine h.all (P := fun item => item.Holds.Plain) ?scalar ?array ?table
  case scalar =>
    intro s item s' h
    cases h <;> exact Item.plain_of_leaf rfl nofun
  case array => exact fun _ => Item.plain_of_leaf rfl nofun
  case table =>
    intro span t entries hentries hbuild path members hholds
    rw [Item.holds_table, holds_foldlM_assign? Table.plain_empty hentries hbuild] at hholds
    exact Table.plain_empty.or (.listed hentries) path members hholds

/-! ### Statements -/

/-- Neither an array of tables nor an item with one inside. -/
def Statement.Plain : Statement → Prop
  | assign _ _ item => item.Holds.Plain
  | header _ _ _ => True
  | nextHeader _ _ _ => False

/-- What a statement says below the path of the last header. -/
def Statement.Tells (current : List Key) : Statement → Facts
  | assign path key item => Below item.Holds (current ++ path ++ [key])
  | header path key _ => Below AtRoot (path ++ [key])
  | nextHeader _ _ _ => fun _ _ => False

/-- The path of the last header after a statement. -/
def Statement.next (current : List Key) : Statement → List Key
  | assign _ _ _ => current
  | header path key _ | nextHeader path key _ => path ++ [key]

/-- What statements say, the first of them below the path of the header before. -/
def Told : List Key → List Statement → Facts
  | _, [] => AtRoot
  | current, statement :: statements => fun path x =>
    statement.Tells current path x ∨ Told (statement.next current) statements path x

variable {statement : Statement} {statements : List Statement} {d d' : Draft}

theorem Statement.Plain.tells (h : statement.Plain) (current : List Key) :
    (statement.Tells current).Plain := by
  cases statement with
  | assign path key item => exact Facts.Plain.below h _
  | header path key span => exact plain_atRoot.below _
  | nextHeader path key span => cases h

theorem told_of_atRoot {current : List Key} (h : AtRoot path x) : Told current statements path x := by
  induction statements generalizing current with
  | nil => exact h
  | cons statement statements ih => exact .inr ih

/-- One more statement adds what it says. -/
theorem Draft.holds_step? (hd : d.root.Holds.Plain) (hs : statement.Plain)
    (h : d.step? statement = some d') :
    (∀ path x, d'.root.Holds path x ↔ d.root.Holds path x ∨ statement.Tells d.current path x) ∧
      d'.current = statement.next d.current := by
  cases statement with
  | assign path key item =>
    obtain ⟨root, hroot, h⟩ := Option.bind_eq_some_iff.mp h
    cases h
    have hadds := (Table.adds_assign? path key item).within? d.current
    rw [← below_append, ← List.append_assoc] at hadds
    exact ⟨hadds _ _ hd hroot, rfl⟩
  | header path key span =>
    obtain ⟨root, hroot, h⟩ := Option.bind_eq_some_iff.mp h
    cases h
    have hadds := (Table.adds_open? key span).underHeader? (.inl ⟨rfl, rfl⟩) path
    rw [← below_append] at hadds
    exact ⟨hadds _ _ hd hroot, rfl⟩
  | nextHeader path key span => cases hs

theorem holds_foldlM_step? (hd : d.root.Holds.Plain) (hs : ∀ statement ∈ statements, statement.Plain)
    (h : statements.foldlM Draft.step? d = some d') (path : List String) (x : Option Item) :
    d'.root.Holds path x ↔ d.root.Holds path x ∨ Told d.current statements path x := by
  induction statements generalizing d with
  | nil =>
    cases h
    exact (or_iff_left_of_imp Table.holds_of_atRoot).symm
  | cons statement statements ih =>
    obtain ⟨hfirst, hrest⟩ := List.forall_mem_cons.mp hs
    obtain ⟨d₁, hstep, h⟩ := Option.bind_eq_some_iff.mp h
    obtain ⟨hroot, hcurrent⟩ := Draft.holds_step? hd hfirst hstep
    have hd₁ : d₁.root.Holds.Plain := fun path members hholds =>
      hd.or (hfirst.tells d.current) path members ((hroot path _).mp hholds)
    rw [ih hd₁ hrest h, hroot path x, hcurrent, or_assoc]
    rfl

/-- Where headers end is not said. -/
theorem told_withValues (current : List Key) (statements : List Statement) :
    Told current (withValues statements) = Told current statements := by
  induction statements generalizing current with
  | nil => rfl
  | cons statement statements ih =>
    cases statement <;> simp only [withValues, Told, Statement.Tells, Statement.next, ih]

theorem withValues_plain (hs : ∀ statement ∈ statements, statement.Plain) :
    ∀ statement ∈ withValues statements, statement.Plain := by
  induction statements with
  | nil => exact hs
  | cons statement statements ih =>
    obtain ⟨hfirst, hrest⟩ := List.forall_mem_cons.mp hs
    cases statement <;> exact List.forall_mem_cons.mpr ⟨hfirst, ih hrest⟩

/-- The table that statements build up holds what they say. -/
theorem holds_build?_iff (hs : ∀ statement ∈ statements, statement.Plain)
    (h : build? statements = some t) : t.Holds path x ↔ Told [] statements path x := by
  obtain ⟨d, hd, h⟩ := Option.bind_eq_some_iff.mp h
  cases h
  rw [holds_foldlM_step? Table.plain_empty (withValues_plain hs) hd path x, told_withValues,
    Table.holds_empty]
  exact or_iff_right_of_imp told_of_atRoot

theorem Says.plain {limits : Limits} {text : String} (h : Says limits text statements)
    (hno : ∀ path key span, .nextHeader path key span ∉ statements) :
    ∀ statement ∈ statements, statement.Plain := by
  intro statement hmem
  cases statement with
  | assign path key item => exact h.all (P := fun item => item.Holds.Plain) Grammar.Value.plain hmem
  | header => trivial
  | nextHeader path key span => exact absurd hmem (hno path key span)

/-! ### Spellings -/

theorem told_append (current : List Key) (statements statements' : List Statement) :
    Told current (statements ++ statements') path x ↔
      Told current statements path x ∨
        Told (statements.foldl Statement.next current) statements' path x := by
  induction statements generalizing current with
  | nil => exact (or_iff_right_of_imp told_of_atRoot).symm
  | cons statement statements ih =>
    simp only [List.cons_append, Told, List.foldl_cons, ih, or_assoc]

/-- Nothing, or what begins with a header. -/
inductive Headed : List Statement → Prop where
  | nil : Headed []
  | header {path : List Key} {key : Key} {span : Span} {statements : List Statement} :
    Headed (.header path key span :: statements)

theorem Headed.told (h : Headed statements) (current : List Key) :
    Told current statements = Told [] statements := by
  cases h <;> rfl

/-- The parts of a document say what they say by themselves, if no header of the first reaches into the
second. -/
theorem told_parts {statements' : List Statement}
    (h : statements.foldl Statement.next [] = [] ∨ Headed statements') :
    Told [] (statements ++ statements') path x ↔
      Told [] statements path x ∨ Told [] statements' path x := by
  rw [told_append]
  rcases h with h | h
  · rw [h]
  · rw [h.told]

variable {entries : List (List Key × Key × Item)}

theorem below_listed (entries : List (List Key × Key × Item)) (keys : List Key) :
    Below (Listed entries) keys path x ↔
      Below AtRoot keys path x ∨ ∃ e ∈ entries, Below e.2.2.Holds (keys ++ e.1 ++ [e.2.1]) path x := by
  induction entries with
  | nil => simp [below_congr (F := Listed []) (G := AtRoot) (by simp [Listed])]
  | cons e entries ih =>
    have hcons (path : List String) (x : Option Item) : Listed (e :: entries) path x ↔
        Below e.2.2.Holds (e.1 ++ [e.2.1]) path x ∨ Listed entries path x := by
      simp only [Listed, List.exists_mem_cons_iff]
      tauto
    rw [below_congr hcons, below_or, ih, ← below_append, ← List.append_assoc, List.exists_mem_cons_iff]
    exact or_left_comm

/-- Entries that are assigned below a path. -/
def assigns (keys : List Key) (entries : List (List Key × Key × Item)) : List Statement :=
  entries.map fun e => .assign (keys ++ e.1) e.2.1 e.2.2

theorem told_assigns (current keys : List Key) (entries : List (List Key × Key × Item)) :
    Told current (assigns keys entries) path x ↔
      AtRoot path x ∨ ∃ e ∈ entries, Below e.2.2.Holds (current ++ (keys ++ e.1) ++ [e.2.1]) path x := by
  induction entries with
  | nil => simp [assigns, Told]
  | cons e entries ih =>
    rw [List.exists_mem_cons_iff, or_left_comm, ← ih]
    rfl

/-- A table of entries, as statements with no header before them. -/
inductive Spelling (path : List Key) (key : Key) (entries : List (List Key × Key × Item)) :
    List Statement → Prop where
  /-- a header with assignments below -/
  | header {span : Span} :
    Spelling path key entries (.header path key span :: assigns [] entries)
  /-- keys with dots -/
  | dotted (some : entries ≠ []) : Spelling path key entries (assigns (path ++ [key]) entries)
  /-- a table in braces -/
  | braces {span : Span} {t : Table}
    (build : entries.foldlM (fun t (path, k, v) => Table.assign? path k v t) [] = some t) :
    Spelling path key entries [.assign path key (.table (.braces span) t)]

/-- A table says the same however it is spelled. -/
theorem told_spelling {keys : List Key} (hentries : ∀ e ∈ entries, e.2.2.Holds.Plain)
    (h : Spelling keys key entries statements) :
    Told [] statements path x ↔ Below (Listed entries) (keys ++ [key]) path x := by
  have hne : keys ++ [key] ≠ [] := List.concat_ne_nil _ _
  cases h with
  | header =>
    simp only [Told, Statement.Tells, Statement.next, told_assigns, below_listed, List.nil_append]
    rw [or_left_comm, or_iff_right_of_imp fun hroot => .inl (below_of_atRoot hne hroot)]
  | dotted hsome =>
    rw [told_assigns, below_listed]
    refine or_congr_left' fun hno => ⟨fun hroot => below_of_atRoot hne hroot, fun hbelow => ?_⟩
    -- every entry says that there are tables on the way to the key
    obtain ⟨e, he⟩ := List.exists_mem_of_ne_nil entries hsome
    refine absurd ⟨e, he, ?_⟩ hno
    rw [List.nil_append, List.append_assoc, below_append]
    exact below_imp (fun _ _ => below_of_atRoot (List.concat_ne_nil _ _)) hbelow
  | braces build =>
    simp only [Told, Statement.Tells, List.nil_append]
    rw [or_iff_left_of_imp fun hroot => below_of_atRoot hne hroot]
    refine below_congr (fun path x => ?_) _
    rw [Item.holds_table, holds_foldlM_assign? Table.plain_empty hentries build, Table.holds_empty]
    exact or_iff_right_of_imp .inl

end Markup.Toml
