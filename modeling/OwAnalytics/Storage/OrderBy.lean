/-
  OwAnalytics.Storage.OrderBy

  `ORM::DB::PrepareOrderBy` (`framework/orm.h`) for a table of any columns: a list of
  items `name:a` or `name:d`, which is refused as a whole, or made into the order of a
  query that names columns of the table and directions and has nothing else in it.
-/

import OwAnalytics.Ap.Json
import OwAnalytics.Lib.SqlTests

namespace OwAnalytics

namespace ORM

/-- The keys of `FieldNames_`, which the constructor puts into lower case. -/
def fieldNames (fields : List Str) : List Str := fields.map fun name => name.map Char.toLower

section

variable (fields : List Str)

/-- The loop of `PrepareOrderBy`, with `ItemList`; `none` where it returns `false`. -/
def orderItems : Str → List Str → Option Str
  | itemList, [] => some itemList
  | itemList, i :: rest =>
    match tokens i ':' with
    | [name, direction] =>
      if direction ≠ ['a'] ∧ direction ≠ ['d'] then none
      else
        let itemList := if itemList.isEmpty then itemList else itemList ++ " , ".toList
        if name.map Char.toLower ∉ fieldNames fields then none
        else
          orderItems
            (itemList ++ name ++ if direction = ['a'] then " ASC".toList else " DESC".toList) rest
    | _ => none

/-- `PrepareOrderBy`: its result, and the `OrderByString` it leaves. -/
def prepareOrderBy (orderByList orderByString : Str) : Bool × Str :=
  match orderItems fields [] (tokens orderByList ',') with
  | none => (false, orderByString)
  | some itemList =>
    (true, if itemList.isEmpty then orderByString else " ORDER BY ".toList ++ itemList)

end

/-! ## Items -/

/-- A name of `orderBy`, with its direction. -/
structure OrderItem where
  name : Str
  ascending : Bool
deriving DecidableEq

namespace OrderItem

/-- The item as it is asked for. -/
def spec (i : OrderItem) : Str := i.name ++ ':' :: [if i.ascending then 'a' else 'd']

/-- The direction as SQL writes it. -/
def direction (i : OrderItem) : Str := if i.ascending then "ASC".toList else "DESC".toList

/-- The item as it stands in the query. -/
def text (i : OrderItem) : Str := i.name ++ ' ' :: i.direction

/-- The item names a column, in any letter case. -/
def Known (fields : List Str) (i : OrderItem) : Prop :=
  ':' ∉ i.name ∧ i.name.map Char.toLower ∈ fieldNames fields

end OrderItem

/-- The items of a query. -/
def orderList (items : List OrderItem) : Str :=
  List.intercalate " , ".toList (items.map OrderItem.text)

variable {fields : List Str}

theorem text_ne_nil (i : OrderItem) : i.text ≠ [] := by
  rw [OrderItem.text]
  exact List.append_ne_nil_of_right_ne_nil _ (List.cons_ne_nil _ _)

theorem not_mem_of_mem_splitOn {s part : Str} {separator : Char}
    (h : part ∈ s.splitOn separator) : separator ∉ part := by
  induction s generalizing part with
  | nil =>
      rw [List.splitOn_nil, List.mem_singleton] at h
      rw [h]
      exact List.not_mem_nil
  | cons c s ih =>
      rw [List.splitOn_cons_eq_if_modifyHead] at h
      obtain ⟨first, rest, hsplit⟩ := List.exists_cons_of_ne_nil (List.splitOn_ne_nil separator s)
      rw [hsplit] at h ih
      -- the parts begin at the separators, so none of them contains one
      by_cases hc : c = separator
      · rw [if_pos (beq_iff_eq.mpr hc)] at h
        rcases List.mem_cons.mp h with rfl | h
        · exact List.not_mem_nil
        · exact ih h
      · rw [if_neg (by simpa using hc), List.modifyHead_cons] at h
        rcases List.mem_cons.mp h with rfl | h
        · rw [List.mem_cons, not_or]
          exact ⟨Ne.symm hc, ih List.mem_cons_self⟩
        · exact ih (List.mem_cons_of_mem _ h)

/-- A token of two parts is a name and a direction around the separator. -/
theorem tokens_eq_pair_iff {token name direction : Str} (hdirection : ':' ∉ direction) :
    tokens token ':' = [name, direction] ↔ token = name ++ ':' :: direction ∧ ':' ∉ name := by
  unfold tokens
  constructor
  · intro h
    split at h
    · cases h
    · have htoken : token = name ++ ':' :: direction := by
        have hjoin : [':'].intercalate (token.splitOn ':') = token := List.intercalate_splitOn ':'
        rw [← hjoin, h, List.intercalate_cons_cons, List.intercalate_singleton, List.append_assoc]
        rfl
      exact ⟨htoken, not_mem_of_mem_splitOn (by rw [h]; exact List.mem_cons_self)⟩
  · rintro ⟨rfl, hname⟩
    have hne : (name ++ ':' :: direction).isEmpty = false := by simp
    rw [hne, List.splitOn_append_cons_self_of_not_mem hname,
      List.splitOn_eq_singleton hdirection]
    rfl

/-- An item is appended behind the ones there are. -/
theorem orderItems_cons {i : OrderItem} (hknown : i.Known fields) (itemList : Str)
    (rest : List Str) :
    orderItems fields itemList (i.spec :: rest) =
      orderItems fields
        ((if itemList.isEmpty then itemList else itemList ++ " , ".toList) ++ i.text) rest := by
  have hcolumn : ¬ i.name.map Char.toLower ∉ fieldNames fields := not_not_intro hknown.2
  have htoken : tokens i.spec ':' = [i.name, [if i.ascending then 'a' else 'd']] := by
    refine (tokens_eq_pair_iff ?_).mpr ⟨rfl, hknown.1⟩
    split <;> decide
  rw [orderItems, htoken]
  cases hascending : i.ascending with
  | true => simp [hascending, hcolumn, OrderItem.text, OrderItem.direction]
  | false => simp [hascending, hcolumn, OrderItem.text, OrderItem.direction]

/-- Nothing but an item passes the checks. -/
theorem exists_item {token : Str} {itemList result : Str} {rest : List Str}
    (h : orderItems fields itemList (token :: rest) = some result) :
    ∃ i : OrderItem, token = i.spec ∧ i.Known fields := by
  rw [orderItems] at h
  split at h
  · rename_i name direction htoken
    dsimp only at h
    split at h
    · cases h
    · rename_i hdirection
      split at h
      · cases h
      · rename_i hknown
        have hknown : name.map Char.toLower ∈ fieldNames fields := not_not.mp hknown
        -- the direction is one letter, `a` or `d`
        by_cases ha : direction = ['a']
        · rw [ha] at htoken
          obtain ⟨rfl, hname⟩ := (tokens_eq_pair_iff (by decide)).mp htoken
          exact ⟨⟨name, true⟩, rfl, hname, hknown⟩
        · have hd : direction = ['d'] := by
            by_contra hd
            exact hdirection ⟨ha, hd⟩
          rw [hd] at htoken
          obtain ⟨rfl, hname⟩ := (tokens_eq_pair_iff (by decide)).mp htoken
          exact ⟨⟨name, false⟩, rfl, hname, hknown⟩
  · cases h

theorem orderList_singleton (i : OrderItem) : orderList [i] = i.text := List.intercalate_singleton

theorem orderList_cons_cons (i j : OrderItem) (items : List OrderItem) :
    orderList (i :: j :: items) = i.text ++ (" , ".toList ++ orderList (j :: items)) := by
  rw [orderList, List.map_cons, List.map_cons, List.intercalate_cons_cons, List.append_assoc]
  rfl

/-- What the loop appends for the items. -/
def appendItems (itemList : Str) (items : List OrderItem) : Str :=
  items.foldl
    (fun itemList i => (if itemList.isEmpty then itemList else itemList ++ " , ".toList) ++ i.text)
    itemList

theorem orderItems_eq_some_iff {itemList result : Str} {parts : List Str} :
    orderItems fields itemList parts = some result ↔
      ∃ items : List OrderItem, (∀ i ∈ items, i.Known fields) ∧
        parts = items.map OrderItem.spec ∧ result = appendItems itemList items := by
  induction parts generalizing itemList with
  | nil =>
      rw [orderItems, Option.some.injEq]
      constructor
      · intro h
        exact ⟨[], nofun, rfl, h.symm⟩
      · rintro ⟨items, -, hparts, rfl⟩
        rw [List.map_eq_nil_iff.mp hparts.symm]
        rfl
  | cons part rest ih =>
      constructor
      · intro h
        obtain ⟨i, rfl, hknown⟩ := exists_item h
        rw [orderItems_cons hknown] at h
        obtain ⟨items, hitems, rfl, hresult⟩ := ih.mp h
        exact ⟨i :: items, List.forall_mem_cons.mpr ⟨hknown, hitems⟩, rfl, hresult⟩
      · rintro ⟨items, hitems, hparts, rfl⟩
        cases items with
        | nil => cases hparts
        | cons i items =>
            rw [List.forall_mem_cons] at hitems
            rw [List.map_cons, List.cons.injEq] at hparts
            rw [hparts.1, orderItems_cons hitems.1]
            exact ih.mpr ⟨items, hitems.2, hparts.2, rfl⟩

theorem appendItems_cons {itemList : Str} (h : itemList ≠ []) (i : OrderItem)
    (items : List OrderItem) :
    appendItems itemList (i :: items) = appendItems (itemList ++ " , ".toList ++ i.text) items := by
  have hsome : ¬ itemList.isEmpty = true := by
    rw [List.isEmpty_iff]
    exact h
  rw [appendItems, List.foldl_cons, if_neg hsome]
  rfl

theorem appendItems_of_ne_nil {itemList : Str} (h : itemList ≠ []) (i : OrderItem)
    (items : List OrderItem) :
    appendItems itemList (i :: items) = itemList ++ (" , ".toList ++ orderList (i :: items)) := by
  induction items generalizing itemList i with
  | nil =>
      rw [appendItems_cons h, orderList_singleton, List.append_assoc]
      rfl
  | cons j items ih =>
      have hne : itemList ++ " , ".toList ++ i.text ≠ [] :=
        List.append_ne_nil_of_right_ne_nil _ (text_ne_nil i)
      rw [appendItems_cons h, ih hne j, orderList_cons_cons, List.append_assoc, List.append_assoc]

/-- Between two items stands a comma. -/
theorem appendItems_nil (items : List OrderItem) : appendItems [] items = orderList items := by
  match items with
  | [] => rfl
  | [i] => rw [orderList_singleton]; rfl
  | i :: j :: items =>
    have hstep : appendItems [] (i :: j :: items) = appendItems i.text (j :: items) := rfl
    rw [hstep, appendItems_of_ne_nil (text_ne_nil i), orderList_cons_cons]

theorem orderList_ne_nil {items : List OrderItem} (h : items ≠ []) : orderList items ≠ [] := by
  match items, h with
  | [i], _ =>
    rw [orderList_singleton]
    exact text_ne_nil i
  | i :: j :: items, _ =>
    rw [orderList_cons_cons]
    exact List.append_ne_nil_of_left_ne_nil (text_ne_nil i) _

/-- The order that stands for the items, where there are any. -/
def orderByItems (items : List OrderItem) (orderByString : Str) : Str :=
  if items.isEmpty then orderByString else " ORDER BY ".toList ++ orderList items

theorem orderByItems_eq (items : List OrderItem) (orderByString : Str) :
    (if (orderList items).isEmpty then orderByString else " ORDER BY ".toList ++ orderList items) =
      orderByItems items orderByString := by
  rw [orderByItems]
  cases items with
  | nil => rfl
  | cons i items =>
      have hne : (orderList (i :: items)).isEmpty = false := by
        rw [List.isEmpty_eq_false_iff]
        exact orderList_ne_nil (List.cons_ne_nil i items)
      rw [hne]
      rfl

/-- The list is refused as a whole, or all of it is items. -/
theorem prepareOrderBy_cases (fields : List Str) (orderByList orderByString : Str) :
    (prepareOrderBy fields orderByList orderByString = (false, orderByString) ∧
      ¬ ∃ items : List OrderItem, (∀ i ∈ items, i.Known fields) ∧
        tokens orderByList ',' = items.map OrderItem.spec) ∨
    ∃ items : List OrderItem, (∀ i ∈ items, i.Known fields) ∧
      tokens orderByList ',' = items.map OrderItem.spec ∧
        prepareOrderBy fields orderByList orderByString =
          (true, orderByItems items orderByString) := by
  cases hloop : orderItems fields [] (tokens orderByList ',') with
  | none =>
      refine .inl ⟨by rw [prepareOrderBy, hloop], ?_⟩
      rintro ⟨items, hknown, hitems⟩
      have hsome : orderItems fields [] (tokens orderByList ',') = some (appendItems [] items) :=
        orderItems_eq_some_iff.mpr ⟨items, hknown, hitems, rfl⟩
      rw [hloop] at hsome
      cases hsome
  | some itemList =>
      obtain ⟨items, hknown, hitems, rfl⟩ := orderItems_eq_some_iff.mp hloop
      refine .inr ⟨items, hknown, hitems, ?_⟩
      rw [prepareOrderBy, hloop, appendItems_nil]
      dsimp only
      rw [orderByItems_eq]

/-! ## The order as it is read -/

namespace OrderItem

/-- The tokens of an item in a query. -/
def words (i : OrderItem) : List Sql.Token := [.word i.name, .word i.direction]

/-- Behind an item the text ends, or a comma follows. -/
theorem lexFrom_text {i : OrderItem} (h : Sql.IsWord i.name) :
    Sql.lexFrom .between i.text = some i.words ∧
      ∀ rest, Sql.lexFrom .between (i.text ++ (" , ".toList ++ rest)) =
        (Sql.lexFrom .between rest).map (i.words ++ .symbol ',' :: ·) := by
  have hdirection : Sql.scan (.word i.name) (' ' :: i.direction) =
      ([.word i.name], .word i.direction) := by
    rw [direction]
    split <;> rfl
  have hcomma : Sql.scan (.word i.direction) " , ".toList =
      ([.word i.direction, .symbol ','], .between) := by
    rw [direction]
    split <;> rfl
  constructor
  · rw [text, Sql.lexFrom_append, h.scan_eq, Sql.lexFrom, hdirection]
    rfl
  · intro rest
    rw [text, List.append_assoc, Sql.lexFrom_append, h.scan_eq, Sql.lexFrom_append, hdirection,
      Sql.lexFrom_append, hcomma, Option.map_map, Option.map_map]
    rfl

/-- A name of a column that is a word is one in the case it is asked for. -/
theorem Known.isWord {i : OrderItem} (h : i.Known fields)
    (hfields : ∀ name ∈ fields, Sql.IsWord name) : Sql.IsWord i.name := by
  obtain ⟨name, hname, hlower⟩ := List.mem_map.mp h.2
  rw [← Sql.isWord_toLower, ← hlower, Sql.isWord_toLower]
  exact hfields name hname

end OrderItem

theorem lexFrom_orderList {items : List OrderItem} (hne : items ≠ [])
    (hwords : ∀ i ∈ items, Sql.IsWord i.name) :
    Sql.lexFrom .between (orderList items) =
      some (List.intercalate [.symbol ','] (items.map OrderItem.words)) := by
  induction items with
  | nil => exact absurd rfl hne
  | cons i rest ih =>
      -- a comma stands between two items, and after the last there is none
      have hi := OrderItem.lexFrom_text (hwords i List.mem_cons_self)
      match rest, ih with
      | [], _ =>
        rw [orderList_singleton, hi.1, List.map_singleton, List.intercalate_singleton]
      | j :: rest, ih =>
        have hrest := ih (List.cons_ne_nil j rest) fun k hk => hwords k (List.mem_cons_of_mem _ hk)
        have hwords : List.intercalate [.symbol ','] ((i :: j :: rest).map OrderItem.words) =
            i.words ++ .symbol ',' ::
              List.intercalate [.symbol ','] ((j :: rest).map OrderItem.words) := by
          rw [List.map_cons, List.map_cons, List.intercalate_cons_cons, List.append_assoc]
          rfl
        rw [orderList_cons_cons, hi.2, hrest, hwords]
        rfl

/-- The order is read as the two key words, and columns with directions between commas. -/
theorem lex_orderBy {items : List OrderItem} (hne : items ≠ [])
    (hwords : ∀ i ∈ items, Sql.IsWord i.name) :
    Sql.lex (" ORDER BY ".toList ++ orderList items) =
      some (.word "ORDER".toList :: .word "BY".toList ::
        List.intercalate [.symbol ','] (items.map OrderItem.words)) := by
  have hhead : Sql.scan .between " ORDER BY ".toList =
      ([.word "ORDER".toList, .word "BY".toList], .between) := rfl
  rw [Sql.lex_eq_lexFrom, Sql.lexFrom_append, hhead, lexFrom_orderList hne hwords]
  rfl

end ORM

end OwAnalytics
