import Mathlib.Data.List.Forall2
import Mathlib.Data.List.TakeWhile
import DatabaseClient.Parameters

set_option autoImplicit false

namespace DatabaseClient.Parameters

theorem pieces_eq_splitOn (separator : Char) (text : List Char) :
    pieces separator text = text.splitOn separator := by
  induction text with
  | nil => rfl
  | cons c rest ih =>
    rw [pieces, List.splitOn_cons_eq_if_modifyHead, ih]
    by_cases same : c = separator
    next => simp [same]
    next =>
      obtain ⟨piece, more, split⟩ := List.exists_cons_of_ne_nil (List.splitOn_ne_nil separator rest)
      simp [same, split]

theorem not_mem_pieces {separator : Char} {text piece : List Char}
    (member : piece ∈ pieces separator text) : separator ∉ piece := by
  induction text generalizing piece with
  | nil =>
    rw [List.mem_singleton.mp member]
    exact List.not_mem_nil
  | cons c rest ih =>
    rw [pieces] at member
    split at member
    next =>
      rcases List.mem_cons.mp member with rfl | later
      next => exact List.not_mem_nil
      next => exact ih later
    next other =>
      split at member
      next =>
        rw [List.mem_singleton.mp member, List.mem_singleton]
        exact Ne.symm other
      next first more split =>
        rw [split] at ih
        rcases List.mem_cons.mp member with rfl | later
        next => simp [Ne.symm other, ih List.mem_cons_self]
        next => exact ih (List.mem_cons_of_mem _ later)

def Holds (piece : List Char) (pair : String × String) : Prop :=
  '=' ∉ pair.1.toList ∧
    (piece = pair.1.toList ++ '=' :: pair.2.toList ∨ piece = pair.1.toList ∧ pair.2 = "")

theorem pair_eq_iff (piece : List Char) (other : String × String) :
    pair piece = other ↔ Holds piece other := by
  constructor
  next =>
    rintro rfl
    have key : '=' ∉ piece.takeWhile (· != '=') := fun member => by
      simpa using List.mem_takeWhile_imp member
    have parts := List.takeWhile_append_dropWhile (p := (· != '=')) (l := piece)
    have behind := List.head?_dropWhile_not (· != '=') piece
    refine ⟨by simpa [pair] using key, ?_⟩
    cases rest : piece.dropWhile (· != '=') with
    | nil =>
      right
      simpa [pair, rest] using parts.symm
    | cons c value =>
      left
      obtain rfl : c = '=' := by simpa [rest] using behind
      simpa [pair, rest] using parts.symm
  next =>
    obtain ⟨key, value⟩ := other
    rintro ⟨plain, shape⟩
    have before : ∀ c ∈ key.toList, (c != '=') = true := by
      intro c member
      exact bne_iff_ne.mpr (ne_of_mem_of_not_mem member plain)
    rcases shape with rfl | ⟨rfl, alone⟩
    next => simp [pair, List.takeWhile_append_of_pos before, List.dropWhile_append_of_pos before]
    next =>
      have whole : key.toList.takeWhile (· != '=') = key.toList :=
        List.takeWhile_eq_self_iff.mpr before
      have none : key.toList.dropWhile (· != '=') = [] := List.dropWhile_eq_nil_iff.mpr before
      obtain rfl : value = "" := alone
      simp [pair, whole, none]

/-- But for one question mark in front, the text is made of pieces with ampersands between them.
Those that are not empty hold the pairs. -/
def Comprises (text : String) (pairs : List (String × String)) : Prop :=
  ∃ rest pieces, (text.toList = '?' :: rest ∨ text.toList = rest ∧ rest.head? ≠ some '?') ∧
    rest = ['&'].intercalate pieces ∧ pieces ≠ [] ∧ (∀ piece ∈ pieces, '&' ∉ piece) ∧
    List.Forall₂ Holds (pieces.filter (!·.isEmpty)) pairs

theorem body_eq_iff (text rest : List Char) :
    body text = rest ↔ text = '?' :: rest ∨ text = rest ∧ rest.head? ≠ some '?' := by
  unfold body
  split
  next tail =>
    constructor
    next => exact fun same => .inl (by rw [same])
    next =>
      rintro (same | ⟨rfl, plain⟩)
      next => exact (List.cons.inj same).2
      next => simp at plain
  next other =>
    constructor
    next =>
      rintro rfl
      refine .inr ⟨rfl, fun head => ?_⟩
      obtain ⟨tail, split⟩ := List.head?_eq_some_iff.mp head
      exact other tail split
    next =>
      rintro (rfl | ⟨rfl, -⟩)
      next => exact absurd rfl (other rest)
      next => rfl

theorem comprises_iff (text : String) (list : List (String × String)) :
    Comprises text list ↔ list = pairs text := by
  have held (pieces : List (List Char)) :
      List.Forall₂ Holds pieces list ↔ list = pieces.map pair := by
    have relation : Holds = fun piece other => pair piece = other := by
      funext piece other
      exact propext (pair_eq_iff piece other).symm
    rw [relation, ← List.forall₂_map_left_iff, List.forall₂_eq_eq_eq]
    exact eq_comm
  simp only [Comprises, held, ← body_eq_iff]
  constructor
  next =>
    rintro ⟨rest, found, same, joined, some, apart, rfl⟩
    rw [pairs, same, joined, pieces_eq_splitOn, List.splitOn_intercalate _ apart some]
  next =>
    rintro rfl
    refine ⟨_, pieces '&' (body text.toList), rfl, ?_, ?_, fun _ => not_mem_pieces, rfl⟩
    next => rw [pieces_eq_splitOn, List.intercalate_splitOn]
    next =>
      rw [pieces_eq_splitOn]
      exact List.splitOn_ne_nil _ _

/-- The pairs of a text that stands within another: a question mark in front belongs to a key. -/
def inner (text : List Char) : List (String × String) :=
  ((pieces '&' text).filter (!·.isEmpty)).map pair

theorem inner_append (left right : List Char) :
    inner (left ++ '&' :: right) = inner left ++ inner right := by
  simp [inner, pieces_eq_splitOn, List.splitOn_append_cons_self]

theorem inner_single {piece : List Char} (single : '&' ∉ piece) :
    inner piece = if piece = [] then [] else [pair piece] := by
  have alone : pieces '&' piece = [piece] := by
    rw [pieces_eq_splitOn]
    exact List.splitOn_eq_singleton single
  rw [inner, alone]
  by_cases empty : piece = [] <;> simp [empty]

theorem body_append (left right : List Char) :
    body (left ++ '&' :: right) = body left ++ '&' :: right := by
  rw [body_eq_iff]
  rcases (body_eq_iff left _).mp rfl with first | ⟨same, plain⟩
  next => exact .inl (congrArg (· ++ '&' :: right) first)
  next =>
    refine .inr ⟨congrArg (· ++ '&' :: right) same, ?_⟩
    cases head : body left with
    | nil => simp
    | cons c rest => simpa [head] using plain

theorem pairs_join (left right : String) :
    pairs (left ++ "&" ++ right) = pairs left ++ inner right.toList := by
  have text : (left ++ "&" ++ right).toList = left.toList ++ '&' :: right.toList := by simp
  rw [pairs, text, body_append]
  exact inner_append _ _

theorem inner_eq_pairs {text : String} (plain : text.toList.head? ≠ some '?') :
    inner text.toList = pairs text := by
  rw [pairs, (body_eq_iff text.toList text.toList).mpr (.inr ⟨rfl, plain⟩), inner]

theorem pairs_single {key value : String} (plain : key.toList.head? ≠ some '?')
    (name : '=' ∉ key.toList) (apart : '&' ∉ key.toList) (single : '&' ∉ value.toList) :
    pairs (key ++ "=" ++ value) = [(key, value)] := by
  have text : (key ++ "=" ++ value).toList = key.toList ++ '=' :: value.toList := by simp
  have bare : body (key.toList ++ '=' :: value.toList) = key.toList ++ '=' :: value.toList := by
    rw [body_eq_iff]
    refine .inr ⟨rfl, ?_⟩
    cases first : key.toList with
    | nil => simp
    | cons c rest => simpa [first] using plain
  have held : pair (key.toList ++ '=' :: value.toList) = (key, value) :=
    (pair_eq_iff _ _).mpr ⟨name, .inl rfl⟩
  rw [pairs, text, bare]
  change inner _ = _
  rw [inner_single (by simp [apart, single]), held]
  simp

section Settings

variable {ε β γ : Type} {set : β → String × String → Except ε β}

def failure? : Except ε β → Option ε
  | .error e => some e
  | .ok _ => none

theorem failure_eq_some_iff {result : Except ε β} {e : ε} :
    failure? result = some e ↔ result = .error e := by
  cases result <;> simp [failure?]

theorem failure_eq_none_iff {result : Except ε β} :
    failure? result = none ↔ ∃ settings, result = .ok settings := by
  cases result <;> simp [failure?]

theorem failure_foldlM {refusal? : String × String → Option ε}
    (judged : ∀ settings pair, failure? (set settings pair) = refusal? pair) (settings : β)
    (pairs : List (String × String)) :
    failure? (pairs.foldlM set settings) = pairs.findSome? refusal? := by
  induction pairs generalizing settings with
  | nil => rfl
  | cons pair rest ih =>
    rw [List.foldlM_cons, List.findSome?_cons, ← judged settings pair]
    cases set settings pair with
    | error e => rfl
    | ok later => exact ih later

theorem foldlM_idle {middle : List (String × String)}
    (idle : ∀ pair ∈ middle, ∀ settings, set settings pair = .ok settings)
    (before after : List (String × String)) (settings : β) :
    (before ++ middle ++ after).foldlM set settings = (before ++ after).foldlM set settings := by
  have kept (settings : β) : middle.foldlM set settings = .ok settings := by
    induction middle with
    | nil => rfl
    | cons pair rest ih =>
      rw [List.foldlM_cons, idle pair List.mem_cons_self]
      exact ih fun other member => idle other (List.mem_cons_of_mem _ member)
  simp only [List.foldlM_append]
  cases before.foldlM set settings with
  | error e => rfl
  | ok later =>
    change (middle.foldlM set later >>= _) = _
    rw [kept]

def last? (pairs : List (String × String)) (key : String) : Option String :=
  pairs.reverse.lookup key

theorem last_cons (key value other : String) (rest : List (String × String)) :
    last? ((other, value) :: rest) key =
      (last? rest key).or (if key = other then some value else none) := by
  rw [last?, List.reverse_cons, List.lookup_append, last?]
  congr 1
  by_cases same : key = other
  next => simp [same]
  next => simp [List.lookup_cons, beq_false_of_ne same, same]

theorem last_eq_none_iff {pairs : List (String × String)} {key : String} :
    last? pairs key = none ↔ ¬ pairs.any (·.1 = key) = true := by
  rw [last?, List.lookup_eq_none_iff]
  simp only [List.mem_reverse, bne_iff_ne, List.any_eq_true, decide_eq_true_eq, not_exists, not_and]
  exact ⟨fun apart pair member same => apart pair member same.symm,
    fun apart pair member same => apart pair member same.symm⟩

/-- The field is what the last value of its key is read as, or as before if there is none. -/
def Decides (pairs : List (String × String)) (key : String) (reads : String → γ → Prop)
    (before after : γ) : Prop :=
  match last? pairs key with
  | some value => reads value after
  | none => after = before

/-- A pair with the key sets the field and no other does. -/
structure Field (set : β → String × String → Except ε β) (get : β → γ) (key : String)
    (reads : String → γ → Prop) : Prop where
  step : ∀ {settings later pair}, set settings pair = .ok later →
    if pair.1 = key then reads pair.2 (get later) else get later = get settings
  unique : ∀ {value x y}, reads value x → reads value y → x = y

variable {get : β → γ} {key : String} {reads : String → γ → Prop}

theorem Field.decides (field : Field set get key reads) {pairs : List (String × String)}
    {settings later : β} (read : pairs.foldlM set settings = .ok later) :
    Decides pairs key reads (get settings) (get later) := by
  induction pairs generalizing settings with
  | nil =>
    obtain rfl := Except.ok.inj read
    rfl
  | cons pair rest ih =>
    obtain ⟨other, value⟩ := pair
    rw [List.foldlM_cons] at read
    cases first : set settings (other, value) with
    | error e => simp [first, bind, Except.bind] at read
    | ok middle =>
      rw [first] at read
      have step := field.step first
      have rest := ih read
      unfold Decides at rest ⊢
      rw [last_cons]
      cases found : last? _ key with
      | some last => simpa [found] using rest
      | none =>
        rw [found] at rest
        by_cases same : key = other
        next =>
          subst same
          simpa [rest] using step
        next => simpa [same, Ne.symm same, rest] using step

theorem Field.override (field : Field set get key reads) {pairs : List (String × String)}
    {start earlier alone later : β} (first : pairs.foldlM set start = .ok alone)
    (second : pairs.foldlM set earlier = .ok later) :
    get later = if pairs.any (·.1 = key) then get alone else get earlier := by
  have first := field.decides first
  have second := field.decides second
  unfold Decides at first second
  cases found : last? pairs key with
  | some value =>
    rw [found] at first second
    have named : pairs.any (·.1 = key) = true := by
      by_contra unnamed
      simp [last_eq_none_iff.mpr unnamed] at found
    rw [if_pos named]
    exact field.unique second first
  | none =>
    rw [found] at second
    rw [if_neg (last_eq_none_iff.mp found), second]

theorem foldlM_join {refusal? : String × String → Option ε}
    (judged : ∀ settings pair, failure? (set settings pair) = refusal? pair) {start : β}
    {overlay : List (String × String) → β → β → β}
    (carried : ∀ pairs earlier alone later, pairs.foldlM set start = .ok alone →
      pairs.foldlM set earlier = .ok later → later = overlay pairs earlier alone)
    (left : String) {right : String} (plain : right.toList.head? ≠ some '?') :
    (pairs (left ++ "&" ++ right)).foldlM set start = do
      let earlier ← (pairs left).foldlM set start
      let alone ← (pairs right).foldlM set start
      return overlay (pairs right) earlier alone := by
  rw [pairs_join, inner_eq_pairs plain, List.foldlM_append]
  congr 1
  funext earlier
  have same : failure? ((pairs right).foldlM set earlier) =
      failure? ((pairs right).foldlM set start) := by
    rw [failure_foldlM judged, failure_foldlM judged]
  cases read : (pairs right).foldlM set start with
  | error e =>
    rw [read] at same
    exact failure_eq_some_iff.mp same
  | ok alone =>
    rw [read] at same
    obtain ⟨later, found⟩ := failure_eq_none_iff.mp same
    rw [found, carried _ earlier alone later read found]
    rfl

theorem foldlM_unknown {keys : List String}
    (unknown : ∀ pair : String × String, pair.1 ∉ keys →
      ∀ settings, set settings pair = .ok settings)
    (start : β) (left right : String) {piece : String} (single : '&' ∉ piece.toList)
    (idle : piece = "" ∨ (pair piece.toList).1 ∉ keys) :
    (pairs (left ++ "&" ++ piece ++ "&" ++ right)).foldlM set start =
      (pairs (left ++ "&" ++ right)).foldlM set start := by
  rw [pairs_join, pairs_join, pairs_join]
  apply foldlM_idle
  intro other member settings
  rw [inner_single single] at member
  split at member
  next => exact absurd member List.not_mem_nil
  next some =>
    rw [List.mem_singleton.mp member]
    refine unknown _ (idle.resolve_left fun empty => some ?_) settings
    rw [empty]
    rfl

end Settings

end DatabaseClient.Parameters
