import Mathlib.Tactic.MkIffOfInductiveProp
import Markup.CommandLine

/-!
# The arguments that are accepted

An accepted list of arguments is spelled piece by piece (`Spells`), and the options are what the
pieces say, each kind in its order (`Options.Extends`). Taking one piece adds it to its kind, which
may be full (`take?_eq_some_iff`), and taking all of them is an induction over the pieces
(`takeAll?_eq_some_iff`). Together these say which lists of arguments are accepted
(`ofArguments_eq_run_iff`).
-/

namespace Markup.CommandLine

/-! ### Spelling -/

def ValueOption.long : ValueOption → String
  | merge => "--merge"
  | config => "--config"

def ValueOption.short : ValueOption → String
  | merge => "-m"
  | config => "-c"

/-- How a flag is spelled. -/
def flagSpelling (terse : Bool) : String := if terse then "--terse" else "--no-terse"

/-- One argument that gives an option its value. -/
inductive Attached (option : ValueOption) : String → String → Prop where
  | long (value : String) : Attached option (option.long ++ "=" ++ value) value
  | short (value : String) : Attached option (option.short ++ "=" ++ value) value
  | joined (value : String) (nonempty : value ≠ "") (first : value.toList.head? ≠ some '=') :
    Attached option (option.short ++ value) value

/-- A part of a command line. -/
inductive Piece where
  | file (name : String)
  | value (option : ValueOption) (value : String)
  | flag (terse : Bool)

/-- How the parts of a command line are spelled. -/
inductive Spells : List String → List Piece → Prop where
  | nil : Spells [] []
  | file {name : String} {args : List String} {pieces : List Piece} (plain : isDetachedValue name)
    (rest : Spells args pieces) : Spells (name :: args) (.file name :: pieces)
  | flag {terse : Bool} {args : List String} {pieces : List Piece} (rest : Spells args pieces) :
    Spells (flagSpelling terse :: args) (.flag terse :: pieces)
  | attached {option : ValueOption} {arg value : String} {args : List String} {pieces : List Piece}
    (spelling : Attached option arg value) (rest : Spells args pieces) :
    Spells (arg :: args) (.value option value :: pieces)
  | detached {option : ValueOption} {arg value : String} {args : List String} {pieces : List Piece}
    (spelling : arg = option.long ∨ arg = option.short) (plain : isDetachedValue value)
    (rest : Spells args pieces) : Spells (arg :: value :: args) (.value option value :: pieces)
  | files (names : List String) : Spells ("--" :: names) (names.map .file)

/-! ### Single arguments -/

/-- What an argument that is taken to be something is spelled like. -/
def Argument.IsSpelled (s : String) : Argument → Prop
  | plain name => name = s ∧ isDetachedValue s
  | valued option (some value) => Attached option s value
  | valued option none => s = option.long ∨ s = option.short
  | flag terse => s = flagSpelling terse
  | separator => s = "--"
  | help | unknown => True

theorem ofLong_isSpelled {s : String} {cs : List Char} (hs : s.toList = '-' :: '-' :: cs) :
    (Argument.ofLong cs).IsSpelled s := by
  have hsplit : s = "--" ++ String.ofList (cs.takeWhile (· ≠ '=')) ++
      String.ofList (cs.dropWhile (· ≠ '=')) := by
    rw [← String.toList_inj, hs]
    simp [List.takeWhile_append_dropWhile]
  have hequals : cs.dropWhile (· ≠ '=') = [] ∨ ∃ value, cs.dropWhile (· ≠ '=') = '=' :: value := by
    cases hdrop : cs.dropWhile (· ≠ '=') with
    | nil => exact .inl rfl
    | cons c value =>
      have hc := List.head?_dropWhile_not (· ≠ '=') cs
      rw [hdrop] at hc
      exact .inr ⟨value, by simpa using hc⟩
  unfold Argument.ofLong
  generalize String.ofList (cs.takeWhile (· ≠ '=')) = word at hsplit ⊢
  rcases hequals with hrest | ⟨value, hrest⟩
  · rw [hrest] at hsplit ⊢
    dsimp only
    split
    · exact .inl hsplit
    · exact .inl hsplit
    · exact hsplit
    · exact hsplit
    · exact trivial
    · exact trivial
  · have hvalue : "--" ++ word ++ String.ofList ('=' :: value) =
        "--" ++ word ++ "=" ++ String.ofList value := by
      rw [← String.toList_inj]
      simp
    rw [hrest, hvalue] at hsplit
    rw [hrest, hsplit]
    dsimp only
    split
    · exact .long _
    · exact .long _
    · next h => cases h
    · next h => cases h
    · next h => cases h
    · exact trivial

theorem attachedTo_isSpelled {s : String} (option : ValueOption) {cs : List Char}
    (hs : s.toList = option.short.toList ++ cs) :
    (Argument.valued option (Argument.attachedTo cs)).IsSpelled s := by
  have hsplit : s = option.short ++ String.ofList cs := by
    rw [← String.toList_inj, hs]
    simp
  unfold Argument.attachedTo
  split
  · refine .inr (hsplit.trans ?_)
    rw [← String.toList_inj]
    simp
  · next value =>
    have hvalue : s = option.short ++ "=" ++ String.ofList value := by
      rw [hsplit, ← String.toList_inj]
      simp
    rw [hvalue]
    exact .short _
  · next hnil hequals =>
    rw [hsplit]
    refine .joined _ (fun h => hnil ?_) (fun h => ?_)
    · simpa using h
    · rw [String.toList_ofList] at h
      obtain ⟨value, rfl⟩ := List.head?_eq_some_iff.mp h
      exact hequals value rfl

theorem isDetachedValue_iff {s : String} :
    isDetachedValue s ↔ (∀ cs, s.toList ≠ '-' :: cs) ∨ s = "-" := by
  simp [isDetachedValue, List.head?_eq_some_iff]

theorem of_isSpelled (s : String) : (Argument.of s).IsSpelled s := by
  unfold Argument.of
  split
  · next hs => exact String.toList_inj.mp hs
  · next cs _ hs => exact ofLong_isSpelled hs
  · next hs => exact ⟨rfl, isDetachedValue_iff.mpr (.inr (String.toList_inj.mp hs))⟩
  · next cs hs => exact attachedTo_isSpelled .merge hs
  · next cs hs => exact attachedTo_isSpelled .config hs
  · exact trivial
  · exact trivial
  · next hplain => exact ⟨rfl, isDetachedValue_iff.mpr (.inl hplain)⟩

theorem isSpelled_of_eq {arg : String} {a : Argument} (h : Argument.of arg = a) : a.IsSpelled arg :=
  h ▸ of_isSpelled arg

theorem of_plain {s : String} (h : isDetachedValue s) : Argument.of s = .plain s := by
  rcases isDetachedValue_iff.mp h with h | rfl
  · unfold Argument.of
    split
    case h_3 hs | h_8 => rfl
    all_goals exact absurd ‹_› (h _)
  · rfl

theorem of_flag (terse : Bool) : Argument.of (flagSpelling terse) = .flag terse := by
  cases terse <;> rfl

theorem of_detached {option : ValueOption} {arg : String}
    (h : arg = option.long ∨ arg = option.short) : Argument.of arg = .valued option none := by
  rcases h with rfl | rfl <;> cases option <;> rfl

theorem of_long {option : ValueOption} {s : String} {cs : List Char}
    (hs : s.toList = option.long.toList ++ '=' :: cs) :
    Argument.of s = .valued option (some (String.ofList cs)) := by
  unfold Argument.of
  rw [hs]
  cases option <;> rfl

theorem of_short {option : ValueOption} {s : String} {cs : List Char}
    (hs : s.toList = option.short.toList ++ cs) :
    Argument.of s = .valued option (Argument.attachedTo cs) := by
  unfold Argument.of
  rw [hs]
  cases option <;> rfl

theorem of_attached {option : ValueOption} {arg value : String} (h : Attached option arg value) :
    Argument.of arg = .valued option (some value) := by
  cases h with
  | long =>
    have hs : (option.long ++ "=" ++ value).toList =
        option.long.toList ++ '=' :: value.toList := by simp
    rw [of_long hs, String.ofList_toList]
  | short =>
    have hs : (option.short ++ "=" ++ value).toList =
        option.short.toList ++ '=' :: value.toList := by simp
    rw [of_short hs, Argument.attachedTo, String.ofList_toList]
  | joined _ nonempty first =>
    have hs : (option.short ++ value).toList = option.short.toList ++ value.toList := by simp
    rw [of_short hs, Argument.attachedTo.eq_3, String.ofList_toList]
    · exact fun hnil => nonempty (String.toList_eq_nil_iff.mp hnil)
    · rintro cs hcs
      exact first (by rw [hcs]; rfl)

/-! ### Pieces -/

/-- Takes one part of a command line. -/
def Options.take? (o : Options) : Piece → Option Options
  | .file name => o.place? name
  | .value option value => o.give? option value
  | .flag terse => if o.terse.isSome then none else some { o with terse := some terse }

def Options.takeAll? (o : Options) (pieces : List Piece) : Option Options :=
  pieces.foldlM Options.take? o

theorem takeAll?_cons {o o' : Options} {piece : Piece} {pieces : List Piece} :
    o.takeAll? (piece :: pieces) = some o' ↔
      ∃ o₁, o.take? piece = some o₁ ∧ o₁.takeAll? pieces = some o' := by
  rw [Options.takeAll?, List.foldlM_cons]
  exact Option.bind_eq_some_iff

theorem elim_eq_run_iff {found : Option Options} {next : Options → Invocation} {o' : Options} :
    found.elim .misuse next = .run o' ↔ ∃ o₁, found = some o₁ ∧ next o₁ = .run o' := by
  cases found <;> simp

theorem takeAll?_files (o : Options) (names : List String) :
    o.takeAll? (names.map .file) = o.placeAll? names := List.foldlM_map ..

/-- With both flags nothing is run. -/
theorem both_of_after {o o' : Options} {both : Bool} {args : List String}
    (h : Invocation.after o both args = .run o') : both = false := by
  have hends {o : Options} {both : Bool} (h : Invocation.ofOptions o both = .run o') :
      both = false := by
    cases both with
    | false => rfl
    | true => cases h
  fun_induction Invocation.after o both args with
  | case1 => exact hends h
  | case2 _ _ _ _ _ _ ih | case5 _ _ _ _ _ _ _ ih | case7 _ _ _ _ _ _ _ _ ih =>
    obtain ⟨o₁, -, hrest⟩ := elim_eq_run_iff.mp h
    exact ih o₁ hrest
  | case4 _ _ _ _ _ _ hflag =>
    rw [Bool.or_eq_true, not_or, Bool.not_eq_true] at hflag
    exact hflag.1
  | case9 =>
    obtain ⟨o₁, -, hrest⟩ := elim_eq_run_iff.mp h
    exact hends hrest
  | case3 | case6 | case8 | case10 | case11 => cases h

/-- The spelling of one piece more. -/
theorem exists_spelling {o o' : Options} {args args' : List String} (piece : Piece)
    (h : (o.take? piece).elim .misuse (fun o => Invocation.after o false args) = .run o')
    (ih : ∀ o, Invocation.after o false args = .run o' →
      ∃ pieces, Spells args pieces ∧ o.takeAll? pieces = some o')
    (hcons : ∀ pieces, Spells args pieces → Spells args' (piece :: pieces)) :
    ∃ pieces, Spells args' pieces ∧ o.takeAll? pieces = some o' := by
  obtain ⟨o₁, ho₁, hrest⟩ := elim_eq_run_iff.mp h
  obtain ⟨pieces, hpieces, htake⟩ := ih o₁ hrest
  exact ⟨piece :: pieces, hcons pieces hpieces, takeAll?_cons.mpr ⟨o₁, ho₁, htake⟩⟩

/-- A flag that leads to a run is one that can be taken. -/
theorem flag_eq_run_iff {o o' : Options} {terse : Bool} {args : List String} :
    (if false || o.terse = some terse then Invocation.misuse
      else Invocation.after { o with terse := some terse } o.terse.isSome args) = .run o' ↔
      (o.take? (.flag terse)).elim .misuse (fun o => Invocation.after o false args) = .run o' := by
  rw [Options.take?]
  cases h : o.terse with
  | none => simp
  | some b =>
    refine iff_of_false (fun hrun => ?_) nofun
    split at hrun
    · cases hrun
    · cases both_of_after hrun

/-- A list of arguments that asks for a run is spelled by pieces that can be taken. -/
theorem exists_pieces {o o' : Options} {args : List String}
    (h : Invocation.after o false args = .run o') :
    ∃ pieces, Spells args pieces ∧ o.takeAll? pieces = some o' := by
  generalize hboth : false = both at h
  fun_induction Invocation.after o both args with
  | case1 o =>
    subst hboth
    cases h
    exact ⟨[], .nil, rfl⟩
  | case2 o both arg args name hof ih =>
    subst hboth
    obtain ⟨rfl, hplain⟩ := isSpelled_of_eq hof
    exact exists_spelling (.file _) h (fun o h => ih o rfl h) fun _ => .file hplain
  | case4 o both arg args terse hof hflag ih =>
    subst hboth
    have hspelled := isSpelled_of_eq hof
    rw [show arg = flagSpelling terse from hspelled]
    have hnone := both_of_after h
    have htaken : o.take? (.flag terse) = some { o with terse := some terse } := by
      rw [Options.take?, hnone, if_neg Bool.false_ne_true]
    obtain ⟨pieces, hpieces, htake⟩ := ih hnone.symm h
    exact ⟨_, .flag hpieces, takeAll?_cons.mpr ⟨_, htaken, htake⟩⟩
  | case5 o both arg args option value hof ih =>
    subst hboth
    have hspelled := isSpelled_of_eq hof
    exact exists_spelling (.value option value) h (fun o h => ih o rfl h) fun _ =>
      .attached hspelled
  | case7 o both arg option hof value args hplain ih =>
    subst hboth
    have hspelled := isSpelled_of_eq hof
    exact exists_spelling (.value option value) h (fun o h => ih o rfl h) fun _ =>
      .detached hspelled hplain
  | case9 o both arg args hof =>
    subst hboth
    have hspelled := isSpelled_of_eq hof
    obtain ⟨o₁, ho₁, hrest⟩ := elim_eq_run_iff.mp h
    cases hrest
    rw [show arg = "--" from hspelled]
    exact ⟨args.map .file, .files args, (takeAll?_files o args).trans ho₁⟩
  | case3 | case6 | case8 | case10 | case11 => cases h

/-- Pieces that can be taken are read, however they are spelled. -/
theorem after_of_spells {o o' : Options} {args : List String} {pieces : List Piece}
    (hspells : Spells args pieces) (htake : o.takeAll? pieces = some o') :
    Invocation.after o false args = .run o' := by
  induction hspells generalizing o with
  | nil =>
    cases htake
    rfl
  | file plain rest ih =>
    obtain ⟨o₁, ho₁, htake⟩ := takeAll?_cons.mp htake
    rw [Invocation.after.eq_def]
    simp only [of_plain plain]
    exact elim_eq_run_iff.mpr ⟨o₁, ho₁, ih htake⟩
  | flag rest ih =>
    obtain ⟨o₁, ho₁, htake⟩ := takeAll?_cons.mp htake
    rw [Invocation.after.eq_def]
    simp only [of_flag]
    exact flag_eq_run_iff.mpr (elim_eq_run_iff.mpr ⟨o₁, ho₁, ih htake⟩)
  | attached spelling rest ih =>
    obtain ⟨o₁, ho₁, htake⟩ := takeAll?_cons.mp htake
    rw [Invocation.after.eq_def]
    simp only [of_attached spelling]
    exact elim_eq_run_iff.mpr ⟨o₁, ho₁, ih htake⟩
  | detached spelling plain rest ih =>
    obtain ⟨o₁, ho₁, htake⟩ := takeAll?_cons.mp htake
    rw [Invocation.after.eq_def]
    simp only [of_detached spelling, if_pos plain]
    exact elim_eq_run_iff.mpr ⟨o₁, ho₁, ih htake⟩
  | files names =>
    rw [takeAll?_files] at htake
    rw [Invocation.after.eq_def]
    exact elim_eq_run_iff.mpr ⟨o', htake, rfl⟩

theorem after_eq_run_iff {o o' : Options} {args : List String} :
    Invocation.after o false args = .run o' ↔
      ∃ pieces, Spells args pieces ∧ o.takeAll? pieces = some o' :=
  ⟨exists_pieces, fun ⟨_, hspells, htake⟩ => after_of_spells hspells htake⟩

/-! ### Options -/

namespace Piece

@[simp] def files : Piece → List String
  | file name => [name]
  | value _ _ | flag _ => []

@[simp] def values (wanted : ValueOption) : Piece → List String
  | value option text => if option = wanted then [text] else []
  | file _ | flag _ => []

@[simp] def flags : Piece → List Bool
  | flag terse => [terse]
  | file _ | value _ _ => []

/-- No name is empty. -/
@[simp] def IsNamed : Piece → Prop
  | file name => name ≠ ""
  | value _ text => text ≠ ""
  | flag _ => True

end Piece

/-- The options are what the pieces say after earlier options: one input and one file of settings at
most, one flag at most, and all the files to merge in their order. -/
@[mk_iff]
structure Options.Extends (o o' : Options) (pieces : List Piece) : Prop where
  named : ∀ piece ∈ pieces, piece.IsNamed
  input : o.input.toList ++ pieces.flatMap Piece.files = o'.input.toList
  merges : o.merges ++ pieces.flatMap (Piece.values .merge) = o'.merges
  config : o.config.toList ++ pieces.flatMap (Piece.values .config) = o'.config.toList
  terse : o.terse.toList ++ pieces.flatMap Piece.flags = o'.terse.toList

@[simp] theorem toList_append_singleton_eq {α : Type} {p q : Option α} {a : α} :
    p.toList ++ [a] = q.toList ↔ p = none ∧ some a = q := by
  cases p <;> cases q <;> simp

@[simp] theorem toList_inj {α : Type} {p q : Option α} : p.toList = q.toList ↔ p = q := by
  cases p <;> cases q <;> simp

theorem take?_eq_some_iff {o o' : Options} {piece : Piece} :
    o.take? piece = some o' ↔ o.Extends o' [piece] := by
  obtain ⟨input, merges, config, terse⟩ := o
  obtain ⟨input', merges', config', terse'⟩ := o'
  cases piece with
  | file name =>
    rw [Options.take?.eq_1, Options.extends_iff]
    simp [Options.place?, and_assoc]
  | value option text =>
    rw [Options.take?.eq_2, Options.extends_iff]
    cases option with
    | merge => simp [Options.give?]
    | config => simp [Options.give?, and_assoc, and_left_comm]
  | flag b =>
    rw [Options.take?.eq_3, Options.extends_iff]
    simp [and_left_comm]

/-- A list that is continued to one of one element at most is one itself. -/
theorem toList_head?_of_append {α : Type} {p : Option α} {l l' : List α}
    (h : l ++ l' = p.toList) : l.head?.toList = l := by
  match l, p with
  | [], _ => rfl
  | [a], _ => rfl
  | _ :: _ :: _, none | _ :: _ :: _, some _ => simp at h

theorem takeAll?_eq_some_iff {o o' : Options} {pieces : List Piece} :
    o.takeAll? pieces = some o' ↔ o.Extends o' pieces := by
  induction pieces generalizing o with
  | nil =>
    obtain ⟨input, merges, config, terse⟩ := o
    obtain ⟨input', merges', config', terse'⟩ := o'
    simp [Options.takeAll?, Options.extends_iff]
  | cons piece pieces ih =>
    rw [takeAll?_cons]
    simp only [take?_eq_some_iff, ih]
    constructor
    · rintro ⟨o₁, hfirst, hrest⟩
      refine ⟨List.forall_mem_cons.mpr ⟨hfirst.named piece List.mem_cons_self, hrest.named⟩, ?_, ?_,
        ?_, ?_⟩
      · rw [← hrest.input, ← hfirst.input, List.flatMap_singleton, List.flatMap_cons,
          List.append_assoc]
      · rw [← hrest.merges, ← hfirst.merges, List.flatMap_singleton, List.flatMap_cons,
          List.append_assoc]
      · rw [← hrest.config, ← hfirst.config, List.flatMap_singleton, List.flatMap_cons,
          List.append_assoc]
      · rw [← hrest.terse, ← hfirst.terse, List.flatMap_singleton, List.flatMap_cons,
          List.append_assoc]
    · rintro ⟨hnamed, hinput, hmerges, hconfig, hterse⟩
      simp only [List.flatMap_cons, ← List.append_assoc] at hinput hmerges hconfig hterse
      obtain ⟨hfirst, hrest⟩ := List.forall_mem_cons.mp hnamed
      have hinput₁ := toList_head?_of_append hinput
      have hconfig₁ := toList_head?_of_append hconfig
      have hterse₁ := toList_head?_of_append hterse
      refine ⟨⟨(o.input.toList ++ piece.files).head?, o.merges ++ piece.values .merge,
        (o.config.toList ++ piece.values .config).head?, (o.terse.toList ++ piece.flags).head?⟩,
        ⟨List.forall_mem_singleton.mpr hfirst, ?_, ?_, ?_, ?_⟩, ⟨hrest, ?_, hmerges, ?_, ?_⟩⟩
      · rw [hinput₁, List.flatMap_singleton]
      · rw [List.flatMap_singleton]
      · rw [hconfig₁, List.flatMap_singleton]
      · rw [hterse₁, List.flatMap_singleton]
      · rw [hinput₁, hinput]
      · rw [hconfig₁, hconfig]
      · rw [hterse₁, hterse]

/-- The lists of arguments that are accepted, and what they ask for. -/
theorem ofArguments_eq_run_iff {args : List String} {o : Options} :
    Invocation.ofArguments args = .run o ↔
      ∃ pieces, Spells args pieces ∧ Options.Extends {} o pieces := by
  rw [Invocation.ofArguments, after_eq_run_iff]
  simp only [takeAll?_eq_some_iff]

end Markup.CommandLine
