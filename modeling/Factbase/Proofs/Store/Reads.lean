import Factbase.Proofs.Store.Actions
import Factbase.Proofs.Store.Rows

/-
  What the reads of a store answer.  No read changes the
  connection.

  Main declarations:
    * `Store.on_list`
    * `Store.on_list_all`
-/

namespace Factbase

namespace Store

/- A list is read from the rows that the statement is run on. -/
theorem on_list
    (s : Store)
    (q : Query)
    (c : Connection) :
    (s.list q).on c =
      (match c.content.prepare s.collection
          q.statement.template with
        | .ok rows =>
            (Row.readAll (q.statement.list rows)).mapError
              .execution
        | .error fault => .error (.execution fault), c) := by
  rw [Store.list, Action.on_bind, Store.prepare,
    Action.on_bind_ok (Action.on_content c), Action.on_execute]
  cases c.content.prepare s.collection q.statement.template with
  | ok rows => exact Action.on_execute _ c
  | error fault => rfl

/- The list of all triples is that of the sorted rows. -/
theorem on_list_all
    {s : Store}
    {c : Connection}
    {rows : List Row}
    (hRows : c.content.rows s.collection = .ok rows)
    {ts : List Triple}
    (hSort : Row.sort rows = ts.map Triple.row) :
    (s.list .all).on c = (.ok ts, c) := by
  have hPrepare :
      c.content.prepare s.collection .everything = .ok rows := by
    simp [Database.prepare, Template.parameters, Template.terms,
      Template.names, hRows]
  rw [on_list]
  simp only [Query.statement, hPrepare, Statement.list, hSort,
    Row.readAll_map_row]
  rfl

end Store

end Factbase
