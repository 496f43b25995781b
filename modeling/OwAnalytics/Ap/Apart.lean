/-
  OwAnalytics.Ap.Apart

  Two works that differ in what one association of each has left: at most one row of
  the client history, one entry of one SSID, and the numbers of its station in the
  client cache.  What is done for another association alike on both keeps them so.
-/

import OwAnalytics.Ap.Frame

namespace OwAnalytics.Ap

open Throwing Document
open Venue (stoull16)

variable {F : Type} [Double F]

/-! ## Lists that differ in one place -/

/-- The lists are the same but for at most one element of each in the same place. -/
def SameBut {α : Type} (P P' : α → Prop) (xs ys : List α) : Prop :=
  ∃ before own own' after, xs = before ++ own ++ after ∧ ys = before ++ own' ++ after ∧
    own.length ≤ 1 ∧ own'.length ≤ 1 ∧ (∀ x ∈ own, P x) ∧ ∀ x ∈ own', P' x

theorem sameBut_refl {α : Type} {P P' : α → Prop} (xs : List α) : SameBut P P' xs xs :=
  ⟨xs, [], [], [], by simp, by simp, by simp, by simp, nofun, nofun⟩

theorem sameBut_append {α : Type} {P P' : α → Prop} {xs ys : List α} (h : SameBut P P' xs ys)
    (zs : List α) : SameBut P P' (xs ++ zs) (ys ++ zs) := by
  obtain ⟨before, own, own', after, rfl, rfl, hrest⟩ := h
  exact ⟨before, own, own', after ++ zs, by simp, by simp, hrest⟩

theorem sameBut_map {α β : Type} {P P' : α → Prop} {Q Q' : β → Prop} {xs ys : List α} {f : α → β}
    (h : SameBut P P' xs ys) (hP : ∀ x, P x → Q (f x)) (hP' : ∀ x, P' x → Q' (f x)) :
    SameBut Q Q' (xs.map f) (ys.map f) := by
  obtain ⟨before, own, own', after, rfl, rfl, hown, hown', hmem, hmem'⟩ := h
  refine ⟨before.map f, own.map f, own'.map f, after.map f, by simp, by simp, by simpa using hown,
    by simpa using hown', ?_, ?_⟩
  · intro y hy
    obtain ⟨x, hx, rfl⟩ := List.mem_map.mp hy
    exact hP x (hmem x hx)
  · intro y hy
    obtain ⟨x, hx, rfl⟩ := List.mem_map.mp hy
    exact hP' x (hmem' x hx)

/-! ## What an association leaves -/

/-- The text the client cache is given for an association, if its station can be read. -/
def stationId (association : Document F) : Option Str :=
  (getJSON getString "station" association []).map macFilter

/-- The row is the association's. -/
def RowOf (association : Document F) (row : WifiClientHistory) : Prop :=
  stationId association = some row.stationId

/-- The entry is the association's. -/
def EntryOf (association : Document F) (tp : UETimePoint F) : Prop :=
  getJSON getString "station" association [] = some tp.station

theorem entryOf_uePoint {env : Env F} {d : Document F} {tp : UETimePoint F}
    (h : uePoint env d = some tp) : EntryOf d tp := by
  unfold uePoint at h
  obtain ⟨station, hstation, h⟩ := Option.bind_eq_some_iff.mp h
  simp only [Option.bind_eq_bind, Option.bind_eq_some_iff] at h
  obtain ⟨_, -, _, -, _, -, _, -, _, -, _, -, _, -, _, -, h⟩ := h
  rw [← Option.some.inj h]
  exact hstation

theorem stationId_uePoint {env : Env F} {d : Document F} {tp : UETimePoint F}
    (h : uePoint env d = some tp) : stationId d = some (macFilter tp.station) := by
  rw [stationId, show getJSON getString "station" d [] = _ from entryOf_uePoint h]
  rfl

/-- The text begins with a number, which is known or can be read backwards. -/
def Accepted (known : List UInt64) (t : Str) : Prop :=
  ∃ n, stoull16 t = some n ∧ (n ∈ known ∨ (stoull16 t.reverse).isSome = true)

/-- Nothing the block does for the association throws, where these numbers are in the cache. -/
structure WellRead (env : Env F) (known : List UInt64) (d : Document F) : Prop where
  uePoint : (uePoint env d).isSome = true
  historyFields : (historyFields env d).isSome = true
  station : ∃ t, stationId d = some t ∧ Accepted known t
  rest : (ueRest d).isSome = true

/-- The cache has grown by numbers of these texts only. -/
structure Grown (venueId : Str) (own : List Str) (c c' : WifiClientCache) : Prop where
  sns : ∀ n ∈ c.sns venueId, n ∈ c'.sns venueId
  new : ∀ n ∈ c'.sns venueId, n ∈ c.sns venueId ∨ ∃ t ∈ own, stoull16 t = some n
  reverseSns : ∀ n ∈ c.reverseSns venueId, n ∈ c'.reverseSns venueId
  newReverse : ∀ n ∈ c'.reverseSns venueId,
    n ∈ c.reverseSns venueId ∨ ∃ t ∈ own, stoull16 t.reverse = some n

theorem grown_refl (venueId : Str) (own : List Str) (c : WifiClientCache) :
    Grown venueId own c c :=
  ⟨fun _ h => h, fun _ h => .inl h, fun _ h => h, fun _ h => .inl h⟩

theorem grown_addSerialNumber {venueId t : Str} {own : List Str} (ht : t ∈ own)
    (c : WifiClientCache) : Grown venueId own c (c.addSerialNumber venueId t).2 := by
  obtain ⟨-, hsns, hreverse⟩ := WifiClientCache.addSerialNumber_spec venueId t c
  refine ⟨?_, ?_, ?_, ?_⟩
  · exact fun n hn => (hsns n).mpr (.inl hn)
  · intro n hn
    rcases (hsns n).mp hn with hn | hn
    · exact .inl hn
    · exact .inr ⟨t, ht, hn⟩
  · exact fun n hn => (hreverse n).mpr (.inl hn)
  · intro n hn
    rcases (hreverse n).mp hn with hn | ⟨_, -, -, hn⟩
    · exact .inl hn
    · exact .inr ⟨t, ht, hn⟩

/-- What an association leaves, whether it throws or not. -/
structure Left (venueId : Str) (d : Document F) (w w' : Work F) : Prop where
  info : w'.info = w.info
  point : w'.point = w.point
  history : ∃ own, w'.history = w.history ++ own ∧ own.length ≤ 1 ∧ ∀ row ∈ own, RowOf d row
  cache : Grown venueId (stationId d).toList w.cache w'.cache

/-- There is no result iff the association is not well read; the result and what is left are its
    own. -/
structure AssociationSpec (env : Env F) (d : Document F) (venueId : Str) (w : Work F)
    (result : Option (UETimePoint F)) (w' : Work F) : Prop where
  read : result.isSome = true ↔ WellRead env (w.cache.sns venueId) d
  entry : ∀ tp, result = some tp → EntryOf d tp
  left : Left venueId d w w'

theorem associationSpec_throw {env : Env F} {d : Document F} {venueId : Str} {w w' : Work F}
    (hthrow : ¬ WellRead env (w.cache.sns venueId) d) (hleft : Left venueId d w w') :
    AssociationSpec env d venueId w none w' :=
  ⟨iff_of_false Bool.false_ne_true hthrow, nofun, hleft⟩

theorem left_cache {venueId : Str} {d : Document F} {w : Work F} {cache : WifiClientCache}
    (h : Grown venueId (stationId d).toList w.cache cache) :
    Left venueId d w { w with cache } :=
  ⟨rfl, rfl, ⟨[], by simp, by simp, nofun⟩, h⟩

theorem left_row {venueId : Str} {d : Document F} {w : Work F} {cache : WifiClientCache}
    {row : WifiClientHistory} (h : Grown venueId (stationId d).toList w.cache cache)
    (hrow : RowOf d row) :
    Left venueId d w { w with cache, history := w.history ++ [row] } :=
  ⟨rfl, rfl, ⟨[row], rfl, by simp, fun _ hmem => List.mem_singleton.mp hmem ▸ hrow⟩, h⟩

/-- An association throws iff it is not well read, and what it leaves is its own. -/
theorem parseAssociation_spec (env : Env F) (d : Document F) (ctx : SSIDContext F) (w : Work F) :
    AssociationSpec env d ctx.venueId w (parseAssociation env d ctx w).1
      (parseAssociation env d ctx w).2 := by
  have hnothing : Left ctx.venueId d w w := left_cache (grown_refl _ _ _)
  unfold parseAssociation
  cases htp : uePoint env d with
  | none =>
      rw [Computation.bind_of_none (Computation.ofOption_apply _ _)]
      exact associationSpec_throw (fun h => by simpa [htp] using h.uePoint) hnothing
  | some tp =>
      rw [Computation.bind_of_some (Computation.ofOption_apply _ _)]
      cases hfields : historyFields env d with
      | none =>
          rw [Computation.bind_of_none (Computation.ofOption_apply _ _)]
          exact associationSpec_throw (fun h => by simpa [hfields] using h.historyFields) hnothing
      | some fields =>
          rw [Computation.bind_of_some (Computation.ofOption_apply _ _)]
          -- Of the row only its station matters from here on.
          have hrow : RowOf d (historyRow ctx tp fields) := stationId_uePoint htp
          generalize historyRow ctx tp fields = row at hrow ⊢
          have hmem : row.stationId ∈ (stationId d).toList := Option.mem_toList.mpr hrow
          have hgrown : Grown ctx.venueId (stationId d).toList w.cache
              (WifiClientCache.addSerialNumber ctx.venueId row.stationId w.cache).2 :=
            grown_addSerialNumber hmem w.cache
          obtain ⟨hadded, -, -⟩ :=
            WifiClientCache.addSerialNumber_spec ctx.venueId row.stationId w.cache
          cases hadd : WifiClientCache.addSerialNumber ctx.venueId row.stationId w.cache with
          | mk result cache =>
          rw [hadd] at hgrown hadded
          cases result with
          | none =>
              rw [Computation.bind_of_none (Computation.within_apply hadd)]
              refine associationSpec_throw (fun h => ?_) (left_cache hgrown)
              obtain ⟨t, ht, haccepted⟩ := h.station
              rw [show stationId d = some row.stationId from hrow] at ht
              obtain rfl := Option.some.inj ht
              exact absurd (hadded.mpr haccepted) (by simp)
          | some u =>
              rw [Computation.bind_of_some (Computation.within_apply hadd),
                Computation.bind_of_some (Computation.modify_apply _ _)]
              cases hrest : ueRest d with
              | none =>
                  rw [Computation.bind_of_none (Computation.ofOption_apply _ _)]
                  exact associationSpec_throw (fun h => by simpa [hrest] using h.rest)
                    (left_row hgrown hrow)
              | some rest =>
                  rw [Computation.bind_of_some (Computation.ofOption_apply _ _)]
                  have hwell : WellRead env (w.cache.sns ctx.venueId) d :=
                    { uePoint := by simp [htp]
                      historyFields := by simp [hfields]
                      station := ⟨_, hrow, hadded.mp rfl⟩
                      rest := by simp [hrest] }
                  refine ⟨iff_of_true rfl hwell, fun tp' htp' => ?_, left_row hgrown hrow⟩
                  have hentry : EntryOf d tp := entryOf_uePoint htp
                  obtain rfl := Option.some.inj htp'
                  exact hentry

/-! ## Works apart in one association -/

section Apart

variable (venueId : Str) (known : List UInt64) (a v : Document F)

omit [Double F] in
/-- The texts of the two stations. -/
def ownTexts : List Str := (stationId a).toList ++ (stationId v).toList

/-- The caches have the numbers known before, and differ in numbers of the two stations only. -/
structure ApartCache (own : List Str) (c c' : WifiClientCache) : Prop where
  known : ∀ n ∈ known, n ∈ c.sns venueId ∧ n ∈ c'.sns venueId
  sns : ∀ n, (∀ t ∈ own, stoull16 t ≠ some n) → (n ∈ c.sns venueId ↔ n ∈ c'.sns venueId)
  reverseSns : ∀ n, (∀ t ∈ own, stoull16 t.reverse ≠ some n) →
    (n ∈ c.reverseSns venueId ↔ n ∈ c'.reverseSns venueId)

/-- The SSIDs are the same, but for the entries of the two associations in one of them. -/
def SameSSIDs (ssids ssids' : List (SSIDTimePoint F)) : Prop :=
  ssids = ssids' ∨ ∃ before s s' after, ssids = before ++ s :: after ∧
    ssids' = before ++ s' :: after ∧ s' = { s with associations := s'.associations } ∧
    SameBut (EntryOf a) (EntryOf v) s.associations s'.associations

/-- The works differ in what the two associations have left only; their SSIDs are in `S`. -/
structure Apart (S : List (SSIDTimePoint F) → List (SSIDTimePoint F) → Prop) (w w' : Work F) :
    Prop where
  info : w'.info = w.info
  point : w'.point = { w.point with ssidData := w'.point.ssidData }
  ssidData : S w.point.ssidData w'.point.ssidData
  history : SameBut (RowOf a) (RowOf v) w.history w'.history
  cache : ApartCache venueId known (ownTexts a v) w.cache w'.cache

/-- A text that gives a number of one of the two stations gives the same number backwards, or
    its number is known. -/
def Harmless (own : List Str) (s : Str) : Prop :=
  ∀ t ∈ own, ∀ n, stoull16 t = some n → stoull16 s = some n →
    n ∈ known ∨ stoull16 s.reverse = stoull16 t.reverse

variable {venueId known a v}

/-- A text is added to both caches or to none, and they stay apart as they are. -/
theorem apartCache_addSerialNumber {own : List Str} {c c' : WifiClientCache} {s : Str}
    (h : ApartCache venueId known own c c') (hs : Harmless known own s)
    (hown : ∀ t ∈ own, Accepted known t) :
    ((c.addSerialNumber venueId s).1.isSome = (c'.addSerialNumber venueId s).1.isSome) ∧
      ApartCache venueId known own (c.addSerialNumber venueId s).2
        (c'.addSerialNumber venueId s).2 := by
  obtain ⟨hok, hsns, hreverse⟩ := WifiClientCache.addSerialNumber_spec venueId s c
  obtain ⟨hok', hsns', hreverse'⟩ := WifiClientCache.addSerialNumber_spec venueId s c'
  -- The number is in both caches or in none, or its text can be read backwards.
  have hcases : ∀ n, stoull16 s = some n → (n ∈ c.sns venueId ↔ n ∈ c'.sns venueId) ∨
      (stoull16 s.reverse).isSome = true ∧ ∃ t ∈ own, stoull16 s.reverse = stoull16 t.reverse := by
    intro n hn
    by_cases hforeign : ∀ t ∈ own, stoull16 t ≠ some n
    · exact .inl (h.sns n hforeign)
    · push Not at hforeign
      obtain ⟨t, ht, htn⟩ := hforeign
      have hknown : n ∈ known → (n ∈ c.sns venueId ↔ n ∈ c'.sns venueId) := fun hin =>
        iff_of_true (h.known n hin).1 (h.known n hin).2
      rcases hs t ht n htn hn with hin | hsame
      · exact .inl (hknown hin)
      · obtain ⟨n', hn', hin | hreadable⟩ := hown t ht
        · rw [htn] at hn'
          obtain rfl := Option.some.inj hn'
          exact .inl (hknown hin)
        · exact .inr ⟨hsame ▸ hreadable, t, ht, hsame⟩
  refine ⟨Bool.eq_iff_iff.mpr (hok.trans (Iff.trans ?_ hok'.symm)), ?_, ?_, ?_⟩
  · refine exists_congr fun n => and_congr_right fun hn => ?_
    rcases hcases n hn with hsame | ⟨hreadable, -⟩
    · rw [hsame]
    · exact iff_of_true (.inr hreadable) (.inr hreadable)
  · exact fun n hn => ⟨(hsns n).mpr (.inl (h.known n hn).1), (hsns' n).mpr (.inl (h.known n hn).2)⟩
  · intro n hn
    rw [hsns, hsns', h.sns n hn]
  · intro n hn
    rw [hreverse, hreverse', h.reverseSns n hn]
    refine or_congr_right (exists_congr fun m => and_congr_right fun hm =>
      and_congr_left fun hread => ?_)
    rcases hcases m hm with hsame | ⟨-, t, ht, hsame⟩
    · rw [hsame]
    · exact absurd (hsame ▸ hread) (hn t ht)

/-- Two caches that have grown from one by numbers of the two stations. -/
theorem apartCache_of_grown {own : List Str} {c d d' : WifiClientCache}
    (hknown : ∀ n ∈ known, n ∈ c.sns venueId) (h : Grown venueId own c d)
    (h' : Grown venueId own c d') : ApartCache venueId known own d d' := by
  refine ⟨?_, ?_, ?_⟩
  · exact fun n hn => ⟨h.sns n (hknown n hn), h'.sns n (hknown n hn)⟩
  · intro n hn
    have hback : ∀ {e : WifiClientCache}, Grown venueId own c e → n ∈ e.sns venueId →
        n ∈ c.sns venueId := fun he hin =>
      (he.new n hin).resolve_right fun ⟨t, ht, htn⟩ => hn t ht htn
    exact ⟨fun hin => h'.sns n (hback h hin), fun hin => h.sns n (hback h' hin)⟩
  · intro n hn
    have hback : ∀ {e : WifiClientCache}, Grown venueId own c e → n ∈ e.reverseSns venueId →
        n ∈ c.reverseSns venueId := fun he hin =>
      (he.newReverse n hin).resolve_right fun ⟨t, ht, htn⟩ => hn t ht htn
    exact ⟨fun hin => h'.reverseSns n (hback h hin), fun hin => h.reverseSns n (hback h' hin)⟩

theorem grown_mono {own own' : List Str} {c c' : WifiClientCache} (h : Grown venueId own c c')
    (hsub : ∀ t ∈ own, t ∈ own') : Grown venueId own' c c' :=
  ⟨h.sns, fun n hn => (h.new n hn).imp_right fun ⟨t, ht, htn⟩ => ⟨t, hsub t ht, htn⟩,
    h.reverseSns,
    fun n hn => (h.newReverse n hn).imp_right fun ⟨t, ht, htn⟩ => ⟨t, hsub t ht, htn⟩⟩

/-- The two associations, done on one work, leave works that are apart in them. -/
theorem apart_of_left {w w₁ w₂ : Work F} (hknown : ∀ n ∈ known, n ∈ w.cache.sns venueId)
    (h : Left venueId a w w₁) (h' : Left venueId v w w₂) : Apart venueId known a v Eq w₁ w₂ := by
  obtain ⟨own, hown, hlength, hrows⟩ := h.history
  obtain ⟨own', hown', hlength', hrows'⟩ := h'.history
  refine ⟨?_, ?_, ?_, ?_, ?_⟩
  · rw [h.info, h'.info]
  · rw [h.point, h'.point]
  · rw [h.point, h'.point]
  · exact ⟨w.history, own, own', [], by simpa using hown, by simpa using hown', hlength, hlength',
      hrows, hrows'⟩
  · exact apartCache_of_grown hknown
      (grown_mono h.cache fun t ht => List.mem_append_left _ ht)
      (grown_mono h'.cache fun t ht => List.mem_append_right _ ht)

theorem sameSSIDs_append {xs ys : List (SSIDTimePoint F)} (h : SameSSIDs a v xs ys)
    (s : SSIDTimePoint F) : SameSSIDs a v (xs ++ [s]) (ys ++ [s]) := by
  rcases h with rfl | ⟨before, s₁, s₂, after, rfl, rfl, hs⟩
  · exact .inl rfl
  · exact .inr ⟨before, s₁, s₂, after ++ [s], by simp, by simp, hs⟩

theorem Apart.sameSSIDs {S : List (SSIDTimePoint F) → List (SSIDTimePoint F) → Prop}
    {w w' : Work F} (h : Apart venueId known a v S w w')
    (hS : ∀ xs ys, S xs ys → SameSSIDs a v xs ys) :
    Apart venueId known a v (SameSSIDs a v) w w' :=
  ⟨h.info, h.point, hS _ _ h.ssidData, h.history, h.cache⟩

theorem apart_refl {w : Work F} (hknown : ∀ n ∈ known, n ∈ w.cache.sns venueId) :
    Apart venueId known a v (SameSSIDs a v) w w :=
  ⟨rfl, rfl, .inl rfl, sameBut_refl _, fun n hn => ⟨hknown n hn, hknown n hn⟩,
    fun _ _ => Iff.rfl, fun _ _ => Iff.rfl⟩

/-! ## The block on the other associations -/

/-- The text the association gives is harmless. -/
def HarmlessAssociation (known : List UInt64) (a v d : Document F) : Prop :=
  ∀ s, stationId d = some s → Harmless known (ownTexts a v) s

/-- The relations of works that what is done alike for harmless associations keeps; if both
    throw, the works are apart. -/
structure Steady (env : Env F) (venueId : Str) (known : List UInt64) (a v : Document F)
    (R : Work F → Work F → Prop) : Prop where
  apart : ∀ w w', R w w' → Apart venueId known a v (SameSSIDs a v) w w'
  info : ∀ (f : DeviceInfo F → DeviceInfo F) w w', R w w' →
    R { w with info := f w.info } { w' with info := f w'.info }
  apData : ∀ (f : APTimePoint F → APTimePoint F) w w', R w w' →
    R { w with point := { w.point with apData := f w.point.apData } }
      { w' with point := { w'.point with apData := f w'.point.apData } }
  push : ∀ (s : SSIDTimePoint F) w w', R w w' →
    R { w with point := { w.point with ssidData := w.point.ssidData ++ [s] } }
      { w' with point := { w'.point with ssidData := w'.point.ssidData ++ [s] } }
  association : ∀ d ctx, HarmlessAssociation known a v d → ctx.venueId = venueId →
    Computation.Related R (Apart venueId known a v (SameSSIDs a v)) (Computation.Same R)
      (parseAssociation env d ctx) (parseAssociation env d ctx)

/-- Works that are apart are kept so. -/
theorem steady_apart {env : Env F} {S : List (SSIDTimePoint F) → List (SSIDTimePoint F) → Prop}
    (hS : ∀ xs ys, S xs ys → SameSSIDs a v xs ys)
    (happend : ∀ xs ys s, S xs ys → S (xs ++ [s]) (ys ++ [s]))
    (hown : ∀ t ∈ ownTexts a v, Accepted known t) :
    Steady env venueId known a v (Apart venueId known a v S) := by
  have hapart : ∀ w w', Apart venueId known a v S w w' →
      Apart venueId known a v (SameSSIDs a v) w w' := fun _ _ h => h.sameSSIDs hS
  refine ⟨hapart, fun f w w' h => ?_, fun f w w' h => ?_, fun s w w' h => ?_,
    fun d ctx hd hctx => ?_⟩
  · exact ⟨congrArg f h.info, h.point, h.ssidData, h.history, h.cache⟩
  · refine ⟨h.info, ?_, h.ssidData, h.history, h.cache⟩
    rw [h.point]
  · refine ⟨h.info, ?_, happend _ _ s h.ssidData, h.history, h.cache⟩
    rw [h.point]
  · refine Computation.related_ofOption_bind hapart fun tp htp => ?_
    refine Computation.related_ofOption_bind hapart fun fields _ => ?_
    -- Of what is done, only the addition to the cache looks at what may be apart.
    have hadd : Computation.Related (Apart venueId known a v S)
        (Apart venueId known a v (SameSSIDs a v)) (Computation.Same (Apart venueId known a v S))
        (.within Work.cache (fun w cache => { w with cache })
          (WifiClientCache.addSerialNumber ctx.venueId (historyRow ctx tp fields).stationId))
        (.within Work.cache (fun w cache => { w with cache })
          (WifiClientCache.addSerialNumber ctx.venueId (historyRow ctx tp fields).stationId)) := by
      intro w w' h
      obtain ⟨hsome, hcache⟩ := apartCache_addSerialNumber h.cache
        (hd _ (stationId_uePoint htp)) hown
      rw [hctx]
      cases hw : WifiClientCache.addSerialNumber venueId (macFilter tp.station) w.cache with
      | mk r c =>
      cases hw' : WifiClientCache.addSerialNumber venueId (macFilter tp.station) w'.cache with
      | mk r' c' =>
      rw [hw, hw'] at hsome hcache
      have hafter : Apart venueId known a v S { w with cache := c } { w' with cache := c' } :=
        ⟨h.info, h.point, h.ssidData, h.history, hcache⟩
      cases r with
      | none =>
          cases r' with
          | none =>
              exact .inr ⟨_, _, Computation.within_apply hw, Computation.within_apply hw',
                hafter.sameSSIDs hS⟩
          | some _ => cases hsome
      | some _ =>
          cases r' with
          | none => cases hsome
          | some _ =>
              exact .inl ⟨_, _, _, _, Computation.within_apply hw, Computation.within_apply hw',
                rfl, hafter⟩
    refine Computation.related_bind_same hadd fun _ => ?_
    refine Computation.related_bind_same
      (Computation.related_modify (S := Apart venueId known a v S) fun w w' h => ?_) fun _ => ?_
    · exact ⟨h.info, h.point, h.ssidData, sameBut_append h.history _, h.cache⟩
    · exact Computation.related_ofOption_bind hapart fun _ _ =>
        Computation.related_pure fun _ _ h => ⟨rfl, h⟩

end Apart

end OwAnalytics.Ap
