import SbEasy.RefreshNodes

/-!
A refresh as a whole: its frame, what it keeps, and when applying the same response twice is
the same as applying it once.
-/

namespace SbEasy.Refresh

open JsonParse

section

variable [Platform] {q q' : Query} {w w' : RefreshWorld} {sub : Bytes} {i : ℕ}
  {t t' : List ProxyRecord} {log : List (ParsedNode × Written)} {r : ProxyRecord}
  {node : ParsedNode}

variable {now now' : ℤ} {expected : Subscription} {nodes : List ParsedNode} {result : FetchResult}
  {s s' s'' : Store} {written written' : List Written}

lemma Settled.known (h : Settled sub node r) (hr : r ∈ t) : Known sub t node :=
  ⟨r, hr, h.stored.subscription, .inl h.fingerprint⟩

end

end SbEasy.Refresh
