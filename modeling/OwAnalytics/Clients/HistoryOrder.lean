/-
  OwAnalytics.Clients.HistoryOrder

  The order in which the client history lists its rows: the one of the source, or the
  one a request asks for, and then of columns of the table and directions only.
-/

import OwAnalytics.Clients.HistoryHandler

namespace OwAnalytics

namespace Clients

open ORM (OrderItem orderByItems orderList)

theorem isWord_fieldNames : ∀ name ∈ fieldNames, Sql.IsWord name := by
  have hwords : ∀ name ∈ fieldNames, name.head?.any Sql.isWordChar = true ∧
      name.tail.all (fun c => Sql.isWordChar c || c.isDigit) = true := by decide
  intro name hname
  obtain ⟨hhead, htail⟩ := hwords name hname
  obtain ⟨c, hc, hword⟩ := (Option.any_eq_true _ _).mp hhead
  exact ⟨⟨c, hc, hword⟩, List.all_eq_true.mp htail⟩

/-- The order of a listing is the one of the source, or one of columns and directions. -/
theorem orderBy_cases {r : Request} {text : Str} (h : r.orderBy = some text) :
    text = " ORDER BY timestamp DESC ".toList ∨
      ∃ items : List OrderItem, items ≠ [] ∧ (∀ i ∈ items, i.Known fieldNames) ∧
        text = " ORDER BY ".toList ++ orderList items := by
  unfold Request.orderBy at h
  dsimp only at h
  split at h
  · exact .inl (Option.some.inj h).symm
  · rename_i arg _
    rcases ORM.prepareOrderBy_cases fieldNames arg " ORDER BY timestamp DESC ".toList with
      ⟨hrefused, -⟩ | ⟨items, hknown, -, hprepared⟩
    · rw [hrefused] at h
      cases h
    · rw [hprepared] at h
      obtain rfl := Option.some.inj h
      cases items with
      | nil => exact .inl rfl
      | cons i items => exact .inr ⟨i :: items, List.cons_ne_nil i items, hknown, rfl⟩

end Clients

namespace ORM

/-- The text is refused and the order left alone, or it is a list of items and the order names
    their columns and directions, in their order, and has nothing else in it. -/
theorem order_by_names_columns (fields : List Str) :
    (∀ orderByList orderByString,
      (prepareOrderBy fields orderByList orderByString = (false, orderByString) ∧
        ¬ ∃ items : List OrderItem, (∀ i ∈ items, i.Known fields) ∧
          tokens orderByList ',' = items.map OrderItem.spec) ∨
      ∃ items : List OrderItem, (∀ i ∈ items, i.Known fields) ∧
        tokens orderByList ',' = items.map OrderItem.spec ∧
          prepareOrderBy fields orderByList orderByString =
            (true, if items.isEmpty then orderByString
              else " ORDER BY ".toList ++ orderList items)) ∧
    ((∀ name ∈ fields, Sql.IsWord name) →
      ∀ items : List OrderItem, items ≠ [] → (∀ i ∈ items, i.Known fields) →
        Sql.lex (" ORDER BY ".toList ++ orderList items) =
          some (.word "ORDER".toList :: .word "BY".toList ::
            List.intercalate [.symbol ','] (items.map OrderItem.words))) ∧
    ∀ (r : Clients.Request) (text : Str), r.orderBy = some text →
      text = " ORDER BY timestamp DESC ".toList ∨
        ∃ items : List OrderItem, items ≠ [] ∧ (∀ i ∈ items, i.Known Clients.fieldNames) ∧
          text = " ORDER BY ".toList ++ orderList items ∧
            Sql.lex text = some (.word "ORDER".toList :: .word "BY".toList ::
              List.intercalate [.symbol ','] (items.map OrderItem.words)) := by
  refine ⟨prepareOrderBy_cases fields, fun hfields items hne hknown => ?_, fun r text h => ?_⟩
  · exact lex_orderBy hne fun i hi => (hknown i hi).isWord hfields
  · rcases Clients.orderBy_cases h with hdefault | ⟨items, hne, hknown, rfl⟩
    · exact .inl hdefault
    · refine .inr ⟨items, hne, hknown, rfl, ?_⟩
      exact lex_orderBy hne fun i hi => (hknown i hi).isWord Clients.isWord_fieldNames

end ORM

end OwAnalytics
