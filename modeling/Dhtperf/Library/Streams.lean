import Mathlib.Data.List.Basic

/-! Machines fed one element at a time that give out results on the way and can fail.
How the input is cut into chunks does not matter to them. -/
namespace Dhtperf.Library

variable {σ β ω ε : Type}

/-- Feeding a list: the outputs come in the order of the elements that caused them. -/
def feedAll (step : σ → β → Except ε (σ × List ω)) : σ → List β → Except ε (σ × List ω)
  | s,[] => pure (s,[])
  | s,x :: xs => do
    let (s,first) ← step s x
    let (s,rest) ← feedAll step s xs
    pure (s,first ++ rest)

def feedChunks (step : σ → β → Except ε (σ × List ω)) : σ → List (List β) → Except ε (σ × List ω)
  | s,[] => pure (s,[])
  | s,chunk :: chunks => do
    let (s,first) ← feedAll step s chunk
    let (s,rest) ← feedChunks step s chunks
    pure (s,first ++ rest)

theorem feedAll_cons (step : σ → β → Except ε (σ × List ω)) (s next last : σ) (x : β) (xs : List β)
    (first rest : List ω) (here : step s x = .ok (next,first)) (later : feedAll step next xs = .ok (last,rest)) :
    feedAll step s (x :: xs) = .ok (last,first ++ rest) := by
  simp only [feedAll,here,later,bind,Except.bind,pure,Except.pure]

theorem feedAll_append (step : σ → β → Except ε (σ × List ω)) (s : σ) (xs ys : List β) :
    feedAll step s (xs ++ ys) = (do
      let (s,first) ← feedAll step s xs
      let (s,rest) ← feedAll step s ys
      pure (s,first ++ rest)) := by
  induction xs generalizing s with
  | nil =>
    simp only [List.nil_append,feedAll,bind,Except.bind,pure,Except.pure]
    split <;> simp_all
  | cons x xs ih =>
    simp only [List.cons_append,feedAll,ih,bind,Except.bind,pure,Except.pure]
    cases step s x with
    | error e => rfl
    | ok r =>
      dsimp only
      cases feedAll step r.1 xs with
      | error e => rfl
      | ok t =>
        dsimp only
        cases feedAll step t.1 ys with
        | error e => rfl
        | ok u => simp [List.append_assoc]

theorem feedAll_append_ok (step : σ → β → Except ε (σ × List ω)) (s next last : σ) (xs ys : List β)
    (first rest : List ω) (here : feedAll step s xs = .ok (next,first))
    (later : feedAll step next ys = .ok (last,rest)) :
    feedAll step s (xs ++ ys) = .ok (last,first ++ rest) := by
  rw [feedAll_append,here]
  simp only [bind,Except.bind,later,pure,Except.pure]

theorem feedChunks_flatten (step : σ → β → Except ε (σ × List ω)) (s : σ) (chunks : List (List β)) :
    feedChunks step s chunks = feedAll step s chunks.flatten := by
  induction chunks generalizing s with
  | nil => rfl
  | cons chunk chunks ih => simp only [feedChunks,List.flatten_cons,feedAll_append,ih]

end Dhtperf.Library
