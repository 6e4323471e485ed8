import ParcelDesk.Store.History

namespace ParcelDesk

namespace Record

def moved (record : Record) (status : Status) (time : Instant) : Record :=
  { record with status, changed := time }

@[simp] theorem owner_moved (record : Record) (status : Status) (time : Instant) :
    (record.moved status time).owner = record.owner := rfl

@[simp] theorem status_moved (record : Record) (status : Status) (time : Instant) :
    (record.moved status time).status = status := rfl

end Record

namespace History

def mark (history : History) (id : UInt64) (status : Status) (time : Instant) : History :=
  match history.get? id with
  | some record => history.insert id (record.moved status time)
  | none => history

theorem get?_mark (history : History) (id key : UInt64) (status : Status) (time : Instant) :
    (history.mark id status time).get? key =
      if key = id then (history.get? key).map (·.moved status time) else history.get? key := by
  unfold mark
  by_cases hkey : key = id
  · subst hkey
    rw [if_pos rfl]
    cases hrecord : history.get? key with
    | none => exact hrecord
    | some record => simp
  · rw [if_neg hkey]
    cases history.get? id with
    | none => rfl
    | some record => simp [hkey]

theorem find_of_some {history : History} {id : UInt64} {record : Record}
    (h : history.get? id = some record) : history.find id = .ok record := by
  rw [find, h]

theorem find_of_none {history : History} {id : UInt64} (h : history.get? id = none) :
    history.find id = .error (.refused .notFound s!"order {id} not found") := by
  rw [find, h]

theorem setStatus_of_some {history : History} {id : UInt64} {record : Record}
    (h : history.get? id = some record) (status : Status) (time : Instant) :
    history.setStatus id status time = .ok (history.mark id status time) := by
  rw [setStatus, find_of_some h, mark, h]
  rfl

theorem setStatus_of_none {history : History} {id : UInt64} (h : history.get? id = none)
    (status : Status) (time : Instant) :
    history.setStatus id status time =
      .error (.refused .notFound s!"order {id} not found") := by
  rw [setStatus, find_of_none h]
  rfl

theorem put_of_none {history : History} {id : UInt64} (h : history.get? id = none)
    (record : Record) : history.put id record = .ok (history.insert id record) := by
  rw [put, h]

end History

end ParcelDesk
