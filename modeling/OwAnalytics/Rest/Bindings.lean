/-
  OwAnalytics.Rest.Bindings

  `RESTAPIHandler::ParseBindings` (`framework/RESTAPI_Handler.h`): which template of an
  end point a path is an instance of, and the bindings of its parameters.  The bindings
  are written while a template is tried, and a segment that is the text of its parameter
  is not bound; so the answer is that of the first template that fits, and the bindings
  are those of all templates tried.
-/

import OwAnalytics.Ap.Json
import Mathlib.Logic.Function.Basic

namespace OwAnalytics.Rest

/-- `BindingMap`. -/
abbrev BindingMap := Str → Option Str

/-- A segment of the path, and the one of the template it stands against. -/
abbrev Segment := Str × Str

/-- `ParamItems[i][0] == '{'`. -/
def isParameter (paramItem : Str) : Bool := paramItem.head? == some '{'

/-- `ParamName`, in lower case. -/
def parameterName (paramItem : Str) : Str :=
  ((paramItem.drop 1).take (paramItem.length - 2)).map Char.toLower

/-- The loop over the segments, and the bindings it leaves. -/
def matchItems (bindings : BindingMap) : List Segment → Bool × BindingMap
  | [] => (true, bindings)
  | (pathItem, paramItem) :: rest =>
    if pathItem ≠ paramItem then
      if isParameter paramItem then
        matchItems (Function.update bindings (parameterName paramItem) (some pathItem)) rest
      else (false, bindings)
    else matchItems bindings rest

/-- The loop over the end points. -/
def matchEndPoints (pathItems : List Str) (bindings : BindingMap) : List Str → Bool × BindingMap
  | [] => (false, bindings)
  | endPoint :: rest =>
    let paramItems := tokens endPoint '/'
    if pathItems.length ≠ paramItems.length then matchEndPoints pathItems bindings rest
    else
      match matchItems bindings (pathItems.zip paramItems) with
      | (true, bindings) => (true, bindings)
      | (false, bindings) => matchEndPoints pathItems bindings rest

/-- `ParseBindings`; the bindings there were are cleared. -/
def parseBindings (request : Str) (endPoints : List Str) : Bool × BindingMap :=
  matchEndPoints (tokens request '/') (fun _ => none) endPoints

/-! ## What is written -/

/-- The segment is a parameter, or the same literal. -/
def fits (s : Segment) : Bool := s.1 == s.2 || isParameter s.2

/-- The bindings that a try of a template writes, in their order: those of the parameters before
    the first literal that differs, but for the ones that are their own text. -/
def written (segments : List Segment) : List (Str × Str) :=
  ((segments.takeWhile fits).filter fun s => s.1 ≠ s.2).map fun s => (parameterName s.2, s.1)

/-- The bindings after they have been written in turn. -/
def write (bindings : BindingMap) (ws : List (Str × Str)) : BindingMap :=
  ws.foldl (fun bindings w => Function.update bindings w.1 (some w.2)) bindings

theorem write_append (bindings : BindingMap) (ws ws' : List (Str × Str)) :
    write bindings (ws ++ ws') = write (write bindings ws) ws' := List.foldl_append

/-- The last value written for a name. -/
def lastWritten (ws : List (Str × Str)) (name : Str) : Option Str := ws.reverse.lookup name

theorem write_apply (bindings : BindingMap) (ws : List (Str × Str)) (name : Str) :
    write bindings ws name = (lastWritten ws name).or (bindings name) := by
  induction ws using List.reverseRecOn with
  | nil => rfl
  | append_singleton ws w ih =>
      rw [write_append, lastWritten, List.reverse_append, List.reverse_singleton,
        List.singleton_append]
      show Function.update (write bindings ws) w.1 (some w.2) name = _
      by_cases hname : name = w.1
      · rw [hname, Function.update_self, List.lookup_cons_self]
        rfl
      · have hne : (name == w.1) = false := beq_eq_false_iff_ne.mpr hname
        rw [Function.update_of_ne hname, ih, List.lookup_cons, hne]
        rfl

theorem written_cons {s : Segment} {rest : List Segment} (h : fits s = true) :
    written (s :: rest) =
      if s.1 = s.2 then written rest else (parameterName s.2, s.1) :: written rest := by
  unfold written
  rw [List.takeWhile_cons_of_pos h]
  by_cases hsame : s.1 = s.2
  · rw [if_pos hsame, List.filter_cons_of_neg (by simp [hsame])]
  · rw [if_neg hsame, List.filter_cons_of_pos (by simpa using hsame), List.map_cons]

/-- A try says whether all segments fit, and writes as far as they do. -/
theorem matchItems_eq (bindings : BindingMap) (segments : List Segment) :
    matchItems bindings segments = (segments.all fits, write bindings (written segments)) := by
  induction segments generalizing bindings with
  | nil => rfl
  | cons s rest ih =>
      obtain ⟨pathItem, paramItem⟩ := s
      rw [matchItems, List.all_cons]
      -- an item equal to the template's is not written, be that a parameter or not
      by_cases hsame : pathItem = paramItem
      · have hfits : fits (pathItem, paramItem) = true := by simp [fits, hsame]
        rw [if_neg (not_not_intro hsame), ih, hfits, Bool.true_and, written_cons hfits,
          if_pos hsame]
      · rw [if_pos hsame]
        cases hparameter : isParameter paramItem with
        | true =>
            have hfits : fits (pathItem, paramItem) = true := by simp [fits, hparameter]
            rw [if_pos rfl, ih, hfits, Bool.true_and, written_cons hfits, if_neg hsame]
            rfl
        | false =>
            have hfits : ¬ fits (pathItem, paramItem) = true := by simp [fits, hsame, hparameter]
            rw [if_neg Bool.false_ne_true, Bool.eq_false_iff.mpr hfits, Bool.false_and, written,
              List.takeWhile_cons_of_neg hfits]
            rfl

/-! ## The templates that are tried -/

/-- The segments of the path against those of the templates that have as many. -/
def candidates (request : Str) (endPoints : List Str) : List (List Segment) :=
  ((endPoints.map (tokens · '/')).filter fun paramItems =>
    (tokens request '/').length = paramItems.length).map (tokens request '/').zip

/-- The first template that the path is an instance of. -/
def firstMatch (request : Str) (endPoints : List Str) : Option (List Segment) :=
  (candidates request endPoints).find? fun segments => segments.all fits

/-- What the templates before it have written, which failed. -/
def leftOver (request : Str) (endPoints : List Str) : List (Str × Str) :=
  ((candidates request endPoints).takeWhile fun segments => !segments.all fits).flatMap written

theorem candidates_cons (request endPoint : Str) (endPoints : List Str) :
    candidates request (endPoint :: endPoints) =
      if (tokens request '/').length = (tokens endPoint '/').length then
        (tokens request '/').zip (tokens endPoint '/') :: candidates request endPoints
      else candidates request endPoints := by
  unfold candidates
  rw [List.map_cons, List.filter_cons]
  by_cases hlength : (tokens request '/').length = (tokens endPoint '/').length
  · rw [if_pos hlength, if_pos (by simpa using hlength), List.map_cons]
  · rw [if_neg hlength, if_neg (by simpa using hlength)]

theorem matchEndPoints_eq (request : Str) (endPoints : List Str) (bindings : BindingMap) :
    matchEndPoints (tokens request '/') bindings endPoints =
      ((firstMatch request endPoints).isSome,
        write bindings (leftOver request endPoints ++
          ((firstMatch request endPoints).elim [] written))) := by
  induction endPoints generalizing bindings with
  | nil => rfl
  | cons endPoint rest ih =>
      rw [matchEndPoints]
      by_cases hlength : (tokens request '/').length = (tokens endPoint '/').length
      · have hcandidates := candidates_cons request endPoint rest
        rw [if_pos hlength] at hcandidates
        rw [if_neg (not_not_intro hlength), matchItems_eq, firstMatch, leftOver, hcandidates]
        -- a template that does not match leaves what it has written up to the first misfit
        cases hall : ((tokens request '/').zip (tokens endPoint '/')).all fits with
        | true => simp [hall]
        | false =>
            rw [List.find?_cons_of_neg (by simp [hall]),
              List.takeWhile_cons_of_pos (by simp [hall]), List.flatMap_cons, List.append_assoc,
              write_append]
            exact ih _
      · have hcandidates := candidates_cons request endPoint rest
        rw [if_neg hlength] at hcandidates
        rw [if_pos hlength, ih, firstMatch, leftOver, firstMatch, leftOver, hcandidates]

/-! ## Instances of a template -/

/-- The path has as many segments as the template, and its literals. -/
def InstanceOf (request endPoint : Str) : Prop :=
  (tokens request '/').length = (tokens endPoint '/').length ∧
    ∀ s ∈ (tokens request '/').zip (tokens endPoint '/'), isParameter s.2 = false → s.1 = s.2

/-- The end point is the first that the path is an instance of. -/
def IsFirst (request : Str) (endPoints : List Str) (endPoint : Str) : Prop :=
  ∃ before after, endPoints = before ++ endPoint :: after ∧ InstanceOf request endPoint ∧
    ∀ e ∈ before, ¬ InstanceOf request e

theorem all_fits_iff {segments : List Segment} :
    segments.all fits = true ↔ ∀ s ∈ segments, isParameter s.2 = false → s.1 = s.2 := by
  rw [List.all_eq_true]
  refine forall₂_congr fun s _ => ?_
  rw [fits, Bool.or_eq_true, beq_iff_eq]
  cases isParameter s.2 <;> simp

theorem firstMatch_cons (request endPoint : Str) (endPoints : List Str) :
    (InstanceOf request endPoint →
      firstMatch request (endPoint :: endPoints) =
        some ((tokens request '/').zip (tokens endPoint '/'))) ∧
    (¬ InstanceOf request endPoint →
      firstMatch request (endPoint :: endPoints) = firstMatch request endPoints) := by
  have hcandidates := candidates_cons request endPoint endPoints
  unfold InstanceOf firstMatch
  rw [hcandidates, ← all_fits_iff]
  by_cases hlength : (tokens request '/').length = (tokens endPoint '/').length
  · rw [if_pos hlength]
    cases hall : ((tokens request '/').zip (tokens endPoint '/')).all fits with
    | true => simp [hall, hlength]
    | false => simp [hall]
  · rw [if_neg hlength]
    simp [hlength]

/-- The first match is that of the first end point the path is an instance of. -/
theorem firstMatch_eq_some_iff {request : Str} {endPoints : List Str} {segments : List Segment} :
    firstMatch request endPoints = some segments ↔
      ∃ endPoint, IsFirst request endPoints endPoint ∧
        segments = (tokens request '/').zip (tokens endPoint '/') := by
  induction endPoints with
  | nil =>
      refine iff_of_false nofun ?_
      rintro ⟨e, ⟨before, after, hnil, -⟩, -⟩
      exact List.append_ne_nil_of_right_ne_nil _ (List.cons_ne_nil _ _) hnil.symm
  | cons endPoint rest ih =>
      by_cases hinstance : InstanceOf request endPoint
      · rw [(firstMatch_cons request endPoint rest).1 hinstance, Option.some.injEq]
        constructor
        · rintro rfl
          exact ⟨endPoint, ⟨[], rest, rfl, hinstance, nofun⟩, rfl⟩
        · rintro ⟨e, ⟨before, after, heq, -, hbefore⟩, rfl⟩
          -- nothing stands before a head that is an instance
          cases before with
          | nil => rw [(List.cons.inj heq).1]
          | cons b before =>
              exact absurd ((List.cons.inj heq).1 ▸ hinstance) (hbefore b List.mem_cons_self)
      · rw [(firstMatch_cons request endPoint rest).2 hinstance, ih]
        refine exists_congr fun e => and_congr_left fun _ => ?_
        constructor
        · rintro ⟨before, after, rfl, he, hbefore⟩
          exact ⟨endPoint :: before, after, rfl, he, List.forall_mem_cons.mpr ⟨hinstance, hbefore⟩⟩
        · rintro ⟨before, after, heq, he, hbefore⟩
          cases before with
          | nil => exact absurd ((List.cons.inj heq).1 ▸ he) hinstance
          | cons b before =>
              exact ⟨before, after, (List.cons.inj heq).2, he,
                fun x hx => hbefore x (List.mem_cons_of_mem _ hx)⟩

theorem firstMatch_isSome_iff {request : Str} {endPoints : List Str} :
    (firstMatch request endPoints).isSome = true ↔
      ∃ endPoint ∈ endPoints, InstanceOf request endPoint := by
  induction endPoints with
  | nil => exact iff_of_false nofun nofun
  | cons endPoint rest ih =>
      rw [List.exists_mem_cons_iff]
      by_cases hinstance : InstanceOf request endPoint
      · rw [(firstMatch_cons request endPoint rest).1 hinstance]
        exact iff_of_true rfl (.inl hinstance)
      · rw [(firstMatch_cons request endPoint rest).2 hinstance, ih]
        exact (or_iff_right hinstance).symm

/-! ## The bindings -/

/-- A parameter of that name stands against the value. -/
def Binds (segments : List Segment) (name value : Str) : Prop :=
  ∃ s ∈ segments, isParameter s.2 = true ∧ parameterName s.2 = name ∧ s.1 = value

/-- The answer is whether the path is an instance of a template, the bindings are those of the
    parameters of the first such template, and there are none without one. -/
structure Routes (request : Str) (endPoints : List Str) : Prop where
  answer : (parseBindings request endPoints).1 = true ↔
    ∃ endPoint ∈ endPoints, InstanceOf request endPoint
  bound : ∀ endPoint, IsFirst request endPoints endPoint → ∀ name value,
    (parseBindings request endPoints).2 name = some value ↔
      Binds ((tokens request '/').zip (tokens endPoint '/')) name value
  unbound : (¬ ∃ endPoint ∈ endPoints, InstanceOf request endPoint) →
    ∀ name, (parseBindings request endPoints).2 name = none

/-- The bindings left over have names that the parameters of the match bind anew; its parameters
    of one name stand against one text; and one that stands against its own text has the name of
    another that does not, or finds that text left over. -/
structure Clean (ws : List (Str × Str)) (segments : List Segment) : Prop where
  named : ∀ w ∈ ws, ∃ s ∈ segments, isParameter s.2 = true ∧ parameterName s.2 = w.1
  agree : ∀ s ∈ segments, ∀ s' ∈ segments, isParameter s.2 = true → isParameter s'.2 = true →
    parameterName s.2 = parameterName s'.2 → s.1 = s'.1
  own : ∀ s ∈ segments, isParameter s.2 = true → s.1 = s.2 →
    (∃ s' ∈ segments, isParameter s'.2 = true ∧ parameterName s'.2 = parameterName s.2 ∧
      s'.1 ≠ s'.2) ∨ lastWritten ws (parameterName s.2) = some s.1

theorem lastWritten_append (ws ws' : List (Str × Str)) (name : Str) :
    lastWritten (ws ++ ws') name = (lastWritten ws' name).or (lastWritten ws name) := by
  rw [lastWritten, List.reverse_append, List.lookup_append]
  rfl

theorem mem_of_lastWritten {ws : List (Str × Str)} {name value : Str}
    (h : lastWritten ws name = some value) : (name, value) ∈ ws := by
  obtain ⟨before, after, hws, -⟩ := List.lookup_eq_some_iff.mp h
  rw [← List.mem_reverse, hws]
  exact List.mem_append_right _ List.mem_cons_self

theorem exists_lastWritten {ws : List (Str × Str)} {name value : Str} (h : (name, value) ∈ ws) :
    ∃ value', lastWritten ws name = some value' := by
  rw [← Option.isSome_iff_exists, lastWritten, List.lookup_isSome_iff]
  exact ⟨(name, value), List.mem_reverse.mpr h, beq_self_eq_true name⟩

theorem mem_written_iff {segments : List Segment} (hall : segments.all fits = true)
    {name value : Str} : (name, value) ∈ written segments ↔
      ∃ s ∈ segments, s.1 ≠ s.2 ∧ isParameter s.2 = true ∧ parameterName s.2 = name ∧
        s.1 = value := by
  rw [written, List.takeWhile_eq_self_iff.mpr (List.all_eq_true.mp hall), List.mem_map]
  constructor
  · rintro ⟨s, hs, heq⟩
    obtain ⟨hs, hne⟩ := List.mem_filter.mp hs
    obtain ⟨hname, hvalue⟩ := Prod.mk.inj heq
    have hne := of_decide_eq_true hne
    refine ⟨s, hs, hne, ?_, hname, hvalue⟩
    by_contra hliteral
    exact hne (all_fits_iff.mp hall s hs (Bool.eq_false_iff.mpr hliteral))
  · rintro ⟨s, hs, hne, -, rfl, rfl⟩
    exact ⟨s, List.mem_filter.mpr ⟨hs, decide_eq_true hne⟩, rfl⟩

theorem clean_of_binds {segments : List Segment} (hall : segments.all fits = true)
    {ws : List (Str × Str)} (h : ∀ name value,
      lastWritten (ws ++ written segments) name = some value ↔ Binds segments name value) :
    Clean ws segments where
  named := by
    rintro ⟨name, value⟩ hw
    obtain ⟨value', hvalue'⟩ := exists_lastWritten (List.mem_append_left (written segments) hw)
    obtain ⟨s, hs, hparameter, hname, -⟩ := (h name value').mp hvalue'
    exact ⟨s, hs, hparameter, hname⟩
  agree := by
    intro s hs s' hs' hparameter hparameter' hname
    have hvalue := (h (parameterName s.2) s.1).mpr ⟨s, hs, hparameter, rfl, rfl⟩
    have hvalue' := (h (parameterName s.2) s'.1).mpr ⟨s', hs', hparameter', hname.symm, rfl⟩
    exact Option.some.inj (hvalue.symm.trans hvalue')
  own := by
    intro s hs hparameter _
    have hvalue := (h (parameterName s.2) s.1).mpr ⟨s, hs, hparameter, rfl, rfl⟩
    -- the value comes from the template itself, or was left by one before it
    rw [lastWritten_append] at hvalue
    cases hown : lastWritten (written segments) (parameterName s.2) with
    | none =>
        rw [hown] at hvalue
        exact .inr hvalue
    | some value =>
        obtain ⟨s', hs', hne, hparameter', hname, -⟩ :=
          (mem_written_iff hall).mp (mem_of_lastWritten hown)
        exact .inl ⟨s', hs', hparameter', hname, hne⟩

namespace Clean

variable {ws : List (Str × Str)} {segments : List Segment} {name value : Str}

/-- A name that the match has written has the text of all its parameters of the name. -/
theorem binds_iff_of_written (h : Clean ws segments) (hall : segments.all fits = true)
    {value' : Str} (hown : lastWritten (written segments) name = some value') :
    value' = value ↔ Binds segments name value := by
  obtain ⟨s, hs, -, hparameter, hname, hvalue'⟩ :=
    (mem_written_iff hall).mp (mem_of_lastWritten hown)
  constructor
  · rintro rfl
    exact ⟨s, hs, hparameter, hname, hvalue'⟩
  · rintro ⟨s', hs', hparameter', hname', hvalue⟩
    rw [← hvalue', ← hvalue]
    exact h.agree s hs s' hs' hparameter hparameter' (hname.trans hname'.symm)

/-- Where it has not written the name, its parameters of the name are their own texts. -/
theorem binds_iff_of_not_written (h : Clean ws segments) (hall : segments.all fits = true)
    (hown : lastWritten (written segments) name = none) :
    lastWritten ws name = some value ↔ Binds segments name value := by
  -- the template does not write the name, so its segments for it are equal to the path's
  have hsame : ∀ s ∈ segments, isParameter s.2 = true → parameterName s.2 = name →
      s.1 = s.2 := by
    intro s hs hparameter hname
    by_contra hne
    obtain ⟨value', hvalue'⟩ := exists_lastWritten
      ((mem_written_iff hall).mpr ⟨s, hs, hne, hparameter, hname, rfl⟩)
    rw [hown] at hvalue'
    cases hvalue'
  have hfound : ∀ s ∈ segments, isParameter s.2 = true → parameterName s.2 = name →
      lastWritten ws name = some s.1 := by
    intro s hs hparameter hname
    rcases h.own s hs hparameter (hsame s hs hparameter hname) with
      ⟨s', hs', hparameter', hname', hne⟩ | hlast
    · exact absurd (hsame s' hs' hparameter' (hname'.trans hname)) hne
    · rwa [hname] at hlast
  constructor
  · intro hvalue
    obtain ⟨s, hs, hparameter, hname⟩ := h.named _ (mem_of_lastWritten hvalue)
    have hs' := hfound s hs hparameter hname
    exact ⟨s, hs, hparameter, hname, Option.some.inj (hs'.symm.trans hvalue)⟩
  · rintro ⟨s, hs, hparameter, hname, rfl⟩
    exact hfound s hs hparameter hname

end Clean

/-- What is left over and what the match writes are together its parameters iff it is clean. -/
theorem bindings_iff_clean {segments : List Segment} (hall : segments.all fits = true)
    (ws : List (Str × Str)) :
    (∀ name value, lastWritten (ws ++ written segments) name = some value ↔
      Binds segments name value) ↔ Clean ws segments := by
  refine ⟨clean_of_binds hall, fun h name value => ?_⟩
  rw [lastWritten_append]
  cases hown : lastWritten (written segments) name with
  | some value' =>
      show some value' = some value ↔ _
      rw [Option.some.injEq]
      exact h.binds_iff_of_written hall hown
  | none =>
      show lastWritten ws name = some value ↔ _
      exact h.binds_iff_of_not_written hall hown

theorem parseBindings_eq (request : Str) (endPoints : List Str) :
    (parseBindings request endPoints).1 = (firstMatch request endPoints).isSome ∧
      ∀ name, (parseBindings request endPoints).2 name =
        lastWritten (leftOver request endPoints ++
          (firstMatch request endPoints).elim [] written) name := by
  rw [parseBindings, matchEndPoints_eq]
  refine ⟨rfl, fun name => ?_⟩
  dsimp only
  rw [write_apply, Option.or_none]

theorem lastWritten_eq_none_iff {ws : List (Str × Str)} :
    (∀ name, lastWritten ws name = none) ↔ ws = [] := by
  constructor
  · intro h
    by_contra hne
    obtain ⟨w, hw⟩ := List.exists_mem_of_ne_nil ws hne
    obtain ⟨value, hvalue⟩ : ∃ value, lastWritten ws w.1 = some value := exists_lastWritten hw
    rw [h] at hvalue
    cases hvalue
  · rintro rfl name
    rfl

/-- The answer is always right; the bindings are iff nothing is left over where no template fits,
    and otherwise the first that does is clean. -/
theorem routes_iff (request : Str) (endPoints : List Str) :
    Routes request endPoints ↔
      ((¬ ∃ endPoint ∈ endPoints, InstanceOf request endPoint) →
        leftOver request endPoints = []) ∧
      ∀ endPoint, IsFirst request endPoints endPoint →
        Clean (leftOver request endPoints) ((tokens request '/').zip (tokens endPoint '/')) := by
  obtain ⟨hanswer, hbindings⟩ := parseBindings_eq request endPoints
  -- with a matching template the bindings are what is left over, then its own
  have hbound : ∀ endPoint, IsFirst request endPoints endPoint →
      ((∀ name value, (parseBindings request endPoints).2 name = some value ↔
        Binds ((tokens request '/').zip (tokens endPoint '/')) name value) ↔
      Clean (leftOver request endPoints) ((tokens request '/').zip (tokens endPoint '/'))) := by
    intro endPoint hfirst
    have hmatch := firstMatch_eq_some_iff.mpr ⟨endPoint, hfirst, rfl⟩
    have hall := List.find?_some hmatch
    rw [hmatch] at hbindings
    rw [← bindings_iff_clean hall]
    exact forall_congr' fun name => by rw [hbindings]; rfl
  have hunbound : (¬ ∃ endPoint ∈ endPoints, InstanceOf request endPoint) →
      ((∀ name, (parseBindings request endPoints).2 name = none) ↔
        leftOver request endPoints = []) := by
    intro hnone
    rw [← firstMatch_isSome_iff, Bool.not_eq_true, Option.isSome_eq_false_iff,
      Option.isNone_iff_eq_none] at hnone
    rw [hnone] at hbindings
    rw [← lastWritten_eq_none_iff]
    refine forall_congr' fun name => ?_
    rw [hbindings, Option.elim_none, List.append_nil]
  constructor
  · intro h
    exact ⟨fun hnone => (hunbound hnone).mp (h.unbound hnone),
      fun endPoint hfirst => (hbound endPoint hfirst).mp (h.bound endPoint hfirst)⟩
  · rintro ⟨hnone, hfirst⟩
    refine ⟨?_, fun endPoint h => (hbound endPoint h).mpr (hfirst endPoint h),
      fun h => (hunbound h).mpr (hnone h)⟩
    rw [hanswer, firstMatch_isSome_iff]

/-- A path of a board that no handler knows leaves the id of the board bound. -/
theorem board_left_bound :
    ¬ ∀ (request : Str) (endPoints : List Str), Routes request endPoints := by
  intro h
  have hunbound := (h "/api/v1/board/5/health".toList ["/api/v1/board/{id}/devices".toList]).unbound
  have hanswer := (h "/api/v1/board/5/health".toList ["/api/v1/board/{id}/devices".toList]).answer
  have hfalse : (parseBindings "/api/v1/board/5/health".toList
      ["/api/v1/board/{id}/devices".toList]).1 = false := by decide +kernel
  have hid : (parseBindings "/api/v1/board/5/health".toList
      ["/api/v1/board/{id}/devices".toList]).2 "id".toList = some "5".toList := by decide +kernel
  rw [hfalse] at hanswer
  rw [hunbound (fun hsome => Bool.false_ne_true (hanswer.mpr hsome))] at hid
  cases hid

end OwAnalytics.Rest
