import Rowset.Condition

/-!
# Selections

A selection names a set of rows: a table, a restriction, and how many rows are taken after how many
are passed over. All statements about a set of rows share the clauses written here, so that reading,
counting, updating and deleting speak of the same rows.
-/

namespace Rowset

/-- A restricted and limited set of rows of one table. -/
structure Selection where
  table : Name
  restriction : Conjunction
  limit : Option Nat
  offset : Option Nat

namespace Selection

open Sql (Piece)

/-- All rows of a table. -/
def ofTable (table : Name) : Selection :=
  ⟨table, .empty, none, none⟩

/-- Restricts a selection further. -/
def restrict (s : Selection) (c : Condition) : Selection :=
  { s with restriction := s.restriction.and c }

/-- Holds of the selections that do not take every row that meets the restriction. -/
def isLimited (s : Selection) : Bool :=
  s.limit.isSome || s.offset.isSome

/-- The WHERE clause, which is left out when the restriction has no text. -/
def whereClause (s : Selection) : List Piece :=
  let pieces := s.restriction.render
  if Sql.isBlank pieces then pieces else .words " WHERE " :: pieces

/-- The LIMIT and OFFSET clauses. -/
def limitClause (s : Selection) : List Piece :=
  (s.limit.map fun n => Piece.words (" LIMIT " ++ toString n)).toList ++
    (s.offset.map fun n => Piece.words (" OFFSET " ++ toString n)).toList

/-- The clause by which a mutation finds its rows. No statement that changes rows has a limit of its
own, so the rows of a limited selection are found through their physical row ids. -/
def targetClause (s : Selection) : List Piece :=
  if s.isLimited then
    [.words " WHERE ctid IN (SELECT ctid FROM ", .name s.table] ++ s.whereClause ++
      s.limitClause ++ [.words ")"]
  else s.whereClause

end Selection

/-- The clause that asks for all columns of the rows that a mutation has touched. -/
def returningClause (returning : Bool) (table : Name) : List Sql.Piece :=
  if returning then [.words " RETURNING ", .name table, .words ".*"] else []

end Rowset
