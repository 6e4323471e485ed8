import ParcelDesk.Proofs.Store.Alike
import ParcelDesk.Proofs.Store.Requests

namespace ParcelDesk.Stock

variable {stock : Stock}

theorem Sound.serve (h : stock.Sound) (request : Request) :
    (Stock.serve request stock).2.Sound := by
  obtain ⟨answer, after, -, hchange, hserve⟩ | ⟨answer, -, hserve⟩ | ⟨error, hserve⟩ :=
    h.serve_cases request
  · rw [hserve]
    exact h.change hchange
  · rw [hserve]
    exact h
  · rw [hserve]
    exact h

theorem Sound.after (h : stock.Sound) (requests : List Request) :
    (Server.after Stock.serve requests stock).Sound := by
  induction requests generalizing stock with
  | nil => exact h
  | cons request rest ih => exact ih (h.serve request)

/-- After any requests, with whatever arguments, a further one is answered, or it fails with an
error and leaves all stores as they were. None of them ever crashes. -/
theorem serve_atomic (past : List Request) (request : Request) :
    (∃ answer, (serve request (Server.after serve past .empty)).1 = .ok answer) ∨
      ∃ error, serve request (Server.after serve past .empty) =
        (Reply.fail error, Server.after serve past .empty) := by
  have hsound := sound_empty.after past
  obtain ⟨answer, after, -, -, hserve⟩ | ⟨answer, -, hserve⟩ | ⟨error, hserve⟩ :=
    hsound.serve_cases request
  · rw [hserve]
    exact .inl ⟨answer, rfl⟩
  · rw [hserve]
    exact .inl ⟨answer, rfl⟩
  · exact .inr ⟨error, hserve⟩

end ParcelDesk.Stock
