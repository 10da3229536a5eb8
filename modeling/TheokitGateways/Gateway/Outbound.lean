import TheokitGateways.Async.InTurn
import TheokitGateways.Gateway.Adapter
import TheokitGateways.Js.Convert

/-!
# Sending a text in parts

An adapter cuts a long text into parts and sends them one after another. `PartsSent`
is what a caller can rely on whenever it looks: the platform has taken the first of
the parts, in order and each once, the send has not thrown, and its answer is `ok`
exactly when all parts were taken. `SendsParts` is a send of which this holds in
every run, and `Delivers` one that also comes to an `ok` when its calls are granted,
so that it refuses only after a call that was not.
-/

namespace TheokitGateways.Gateway
open Js Async Prog

variable {Call : Type} {Answer : Call → Type} {ε ω A R I : Type}

/-- What a loop over parts answers: the first refusal, or success under the id that is left. -/
def answerOf : Except SendResult (Option JsString) → SendResult
  | .error refusal => refusal
  | .ok id => { ok := true, messageId := id }

/-- The refusal of an edit with a text that takes another number of messages than one. -/
def partsRefusal (unitName : JsString) (partCount : Nat) : SendResult :=
  if 1 < partCount then
    .failure (js "edit_too_long") (js "text needs " ++ natText partCount ++ js " " ++ unitName ++
      js "; an edit replaces one")
  else .failure (js "empty_text") (js "text reduced to zero parts")

/-- What has come of a send whose parts the platform takes under names. `name` is what the answer
calls the message. -/
structure PartsSent (name : List I → Option JsString) (parts : List JsString)
    (posted : List (JsString × I)) (q : Prog Call Answer ε ω SendResult) : Prop where
  first : posted.map Prod.fst <+: parts
  answers : ∀ e, q ≠ .throw e
  complete : ∀ r, q = .ret r → (r.ok = true ↔ posted.map Prod.fst = parts)
  named : ∀ r, q = .ret r → r.ok = true → r.messageId = name (posted.map Prod.snd)

def SendsParts (takes : Event Call Answer ε ω → Option (JsString × I))
    (name : List I → Option JsString) (parts : List JsString)
    (p : Prog Call Answer ε ω SendResult) : Prop :=
  ∀ t q, Runs p t q → PartsSent name parts (t.filterMap takes) q

section
variable {takes : Event Call Answer ε ω → Option (JsString × I)} {note : A → I → A}
  {send : A → JsString → Prog Call Answer ε ω (Except R A)} {a : A} {parts : List JsString}
  {name : List I → Option JsString} {finish : Except R A → SendResult}
  {refuses : A → JsString → R → Prop}

/-- Nothing is taken, and nothing is answered `ok`. -/
theorem partsSent_nothing (hparts : parts ≠ []) {q : Prog Call Answer ε ω SendResult}
    (hthrow : ∀ e, q ≠ .throw e) (hq : ∀ r, q = .ret r → r.ok = false) :
    PartsSent name parts [] q where
  first := List.nil_prefix
  answers := hthrow
  complete r heq := by
    rw [hq r heq]
    exact ⟨fun hok => (nomatch hok), fun hall => (hparts hall.symm).elim⟩
  named r heq hok := by
    rw [hq r heq] at hok
    cases hok

theorem sendsParts_refusal (hparts : parts ≠ []) {r : SendResult} (hr : r.ok = false) :
    SendsParts takes name parts (.ret r) := by
  intro t q h
  obtain ⟨rfl, rfl⟩ := runs_ret.1 h
  refine partsSent_nothing hparts (fun _ heq => nomatch heq) fun r' heq => ?_
  cases heq
  exact hr

/-- A call that takes no part comes first. -/
theorem sendsParts_call (hparts : parts ≠ []) {c : Call}
    {k : Except ε (Answer c) → Prog Call Answer ε ω SendResult}
    (hk : ∀ r, takes (.answered c r) = none ∧ SendsParts takes name parts (k r)) :
    SendsParts takes name parts (.call c k) := by
  intro t q h
  obtain ⟨rfl, rfl⟩ | ⟨r, t', rfl, hrest⟩ := runs_call.1 h
  · exact partsSent_nothing hparts (fun _ heq => nomatch heq) fun _ heq => nomatch heq
  · obtain ⟨hnone, hsends⟩ := hk r
    rw [List.filterMap_cons_none hnone]
    exact hsends t' q hrest

/-- Something is written first. -/
theorem sendsParts_emit (hparts : parts ≠ []) {o : ω} {k : Prog Call Answer ε ω SendResult}
    (ho : takes (.emitted o) = none) (hk : SendsParts takes name parts k) :
    SendsParts takes name parts (.emit o k) := by
  intro t q h
  obtain ⟨rfl, rfl⟩ | ⟨t', rfl, hrest⟩ := runs_emit.1 h
  · exact partsSent_nothing hparts (fun _ heq => nomatch heq) fun _ heq => nomatch heq
  · rw [List.filterMap_cons_none ho]
    exact hk t' q hrest

/-- A call sends a single part, when it is answered `ok` if the part was taken, and otherwise what
follows sends it. -/
theorem sendsParts_attempt {c : Call} {k : Except ε (Answer c) → Prog Call Answer ε ω SendResult}
    {body : JsString} (hk : ∀ r,
      (takes (.answered c r) = none ∧ SendsParts takes name [body] (k r)) ∨ ∃ i result,
        takes (.answered c r) = some (body, i) ∧ k r = .ret result ∧ result.ok = true ∧
          result.messageId = name [i]) :
    SendsParts takes name [body] (.call c k) := by
  have hbody : [body] ≠ [] := by simp
  intro t q h
  obtain ⟨rfl, rfl⟩ | ⟨r, t', rfl, hrest⟩ := runs_call.1 h
  · exact partsSent_nothing hbody (fun _ heq => nomatch heq) fun _ heq => nomatch heq
  · obtain ⟨hnone, hsends⟩ | ⟨i, result, hsome, hresult, hok, hname⟩ := hk r
    · rw [List.filterMap_cons_none hnone]
      exact hsends t' q hrest
    · rw [hresult] at hrest
      obtain ⟨rfl, rfl⟩ := runs_ret.1 hrest
      rw [List.filterMap_cons_some hsome]
      refine ⟨List.prefix_rfl, fun _ heq => (nomatch heq), fun r heq => ?_, fun r heq _ => ?_⟩
      · cases heq
        exact ⟨fun _ => rfl, fun _ => hok⟩
      · cases heq
        exact hname

/-- One call sends a single part, when the answer is `ok` exactly if it was taken. -/
theorem sendsParts_once {c : Call} {k : Except ε (Answer c) → Prog Call Answer ε ω SendResult}
    {body : JsString} (hk : ∀ r, ∃ result, k r = .ret result ∧
      ((takes (.answered c r) = none ∧ result.ok = false) ∨ ∃ i,
        takes (.answered c r) = some (body, i) ∧ result.ok = true ∧
          result.messageId = name [i])) :
    SendsParts takes name [body] (.call c k) := by
  refine sendsParts_attempt fun r => ?_
  obtain ⟨result, hresult, ⟨hnone, hno⟩ | ⟨i, hsome, hok, hname⟩⟩ := hk r
  · refine .inl ⟨hnone, ?_⟩
    rw [hresult]
    exact sendsParts_refusal (by simp) hno
  · exact .inr ⟨i, result, hsome, hresult, hok, hname⟩

/-- A loop over the parts sends them, when what it refuses with is no success and what it comes to
is one, under the name. -/
theorem sendsParts_inTurn
    (hsend : ∀ a part, Takes takes note a part (refuses a part) (send a part))
    (hrefused : ∀ a part r, refuses a part r → (finish (.error r)).ok = false)
    (hdone : ∀ ids : List I, ids.length = parts.length →
      (finish (.ok (ids.foldl note a))).ok = true ∧
        (finish (.ok (ids.foldl note a))).messageId = name ids) :
    SendsParts takes name parts (inTurn send a parts >>= fun r => .ret (finish r)) := by
  intro t q h
  obtain ⟨p', hp, hlive, rfl⟩ | ⟨e, hp, rfl⟩ | ⟨t₁, t₂, r, rfl, hp, hrest⟩ := Runs.of_bind h
  · obtain ⟨hreturns, hthrows⟩ := ne_of_not_finished (finished_bind hlive)
    exact ⟨(runs_inTurn hsend hp).first, hthrows, fun r heq => (hreturns r heq).elim,
      fun r heq => (hreturns r heq).elim⟩
  · exact ((runs_inTurn hsend hp).answers e rfl).elim
  · obtain ⟨rfl, rfl⟩ := runs_ret.1 hrest
    rw [List.append_nil]
    have hturn := runs_inTurn hsend hp
    cases r with
    | error refusal =>
      obtain ⟨part, rest, hparts, hfrom⟩ := hturn.refused refusal rfl
      have hno := hrefused _ part refusal hfrom
      refine ⟨hturn.first, fun _ heq => (nomatch heq), fun r heq => ?_, fun r heq hok => ?_⟩
      · cases heq
        rw [hno]
        refine ⟨fun hok => (nomatch hok), fun hall => ?_⟩
        have hlength := congrArg List.length hparts
        rw [hall, List.length_append, List.length_cons] at hlength
        omega
      · cases heq
        rw [hno] at hok
        cases hok
    | ok a' =>
      obtain ⟨hall, rfl⟩ := hturn.succeeded a' rfl
      have hlength : ((t₁.filterMap takes).map Prod.snd).length = parts.length := by
        rw [← hall, List.length_map, List.length_map]
      obtain ⟨hok, hnamed⟩ := hdone _ hlength
      refine ⟨hturn.first, fun _ heq => (nomatch heq), fun r heq => ?_, fun r heq _ => ?_⟩
      · cases heq
        exact ⟨fun _ => hall, fun _ => hok⟩
      · cases heq
        exact hnamed

/-- What a loop refuses with is about the part after those that were taken. -/
theorem refusal_inTurn
    (hsend : ∀ a part, Takes takes note a part (refuses a part) (send a part))
    (hdone : ∀ a, (finish (.ok a)).ok = true) {t : List (Event Call Answer ε ω)} {s : SendResult}
    (h : Runs (inTurn send a parts >>= fun r => .ret (finish r)) t (.ret s)) (hs : s.ok = false) :
    ∃ refusal part rest, s = finish (.error refusal) ∧
      parts = (t.filterMap takes).map Prod.fst ++ part :: rest ∧
      refuses (((t.filterMap takes).map Prod.snd).foldl note a) part refusal := by
  obtain ⟨p', _, hlive, heq⟩ | ⟨e, _, heq⟩ | ⟨t₁, t₂, r, rfl, hp, hrest⟩ := Runs.of_bind h
  · exact absurd heq.symm ((ne_of_not_finished (finished_bind hlive)).1 s)
  · cases heq
  · obtain ⟨rfl, heq⟩ := runs_ret.1 hrest
    cases heq
    rw [List.append_nil]
    cases r with
    | ok a' =>
      rw [hdone] at hs
      cases hs
    | error refusal =>
      obtain ⟨part, rest, hparts, hrefused⟩ := (runs_inTurn hsend hp).refused refusal rfl
      exact ⟨refusal, part, rest, rfl, hparts, hrefused⟩

end

/-! ### Sends that are granted their calls -/

/-- A send of parts that answers `ok` once its calls are granted. -/
structure Delivers (granted : ∀ c, Except ε (Answer c) → Prop)
    (takes : Event Call Answer ε ω → Option (JsString × I)) (name : List I → Option JsString)
    (parts : List JsString) (p : Prog Call Answer ε ω SendResult) : Prop where
  sends : SendsParts takes name parts p
  answers : p.ReturnsUnder granted (·.ok = true)

section
variable {granted : ∀ c, Except ε (Answer c) → Prop}
  {takes : Event Call Answer ε ω → Option (JsString × I)} {name : List I → Option JsString}
  {parts : List JsString} {p : Prog Call Answer ε ω SendResult}

/-- In an environment that grants every call all parts go out, and the answer is `ok`. -/
theorem Delivers.exists_run (h : Delivers granted takes name parts p)
    {env : ∀ c, Except ε (Answer c)} (henv : ∀ c, granted c (env c)) :
    ∃ t r, Runs p t (.ret r) ∧ r.ok = true ∧ (t.filterMap takes).map Prod.fst = parts := by
  obtain ⟨t, r, hrun, hok, _⟩ := h.answers.exists_run henv
  exact ⟨t, r, hrun, hok, ((h.sends t _ hrun).complete r rfl).1 hok⟩

/-- A loop over the parts, each of which goes out when its calls are granted. -/
theorem returnsUnder_finish {send : A → JsString → Prog Call Answer ε ω (Except R A)}
    {finish : Except R A → SendResult}
    (hsend : ∀ a part, (send a part).ReturnsUnder granted fun r => ∃ a', r = .ok a')
    (hdone : ∀ a, (finish (.ok a)).ok = true) (a : A) (parts : List JsString) :
    (inTurn send a parts >>= fun r => .ret (finish r)).ReturnsUnder granted (·.ok = true) := by
  refine (returnsUnder_inTurn hsend a parts).bind fun r hr => ?_
  obtain ⟨a', rfl⟩ := hr
  exact hdone a'

end

/-- A loop that notes the text of the last name. -/
theorem foldl_last {N : Type} (text : I → N) (ids : List I) (a : Option N) :
    ids.foldl (fun _ i => some (text i)) a = (ids.getLast?.map text).or a := by
  induction ids generalizing a with
  | nil => rfl
  | cons i ids ih =>
    rw [List.foldl_cons, ih, List.getLast?_cons]
    cases ids.getLast? <;> rfl

/-- A loop that answers with the first refusal, or under the text of the last part's id. -/
theorem sendsParts_lastText {takes : Event Call Answer ε ω → Option (JsString × I)}
    {send : Option JsString → JsString → Prog Call Answer ε ω (Except SendResult (Option JsString))}
    (text : I → JsString)
    (hsend : ∀ a part, Takes takes (fun _ i => some (text i)) a part (·.ok = false) (send a part))
    (parts : List JsString) : SendsParts takes (fun ids => ids.getLast?.map text) parts
      (inTurn send none parts >>= fun r => .ret (answerOf r)) := by
  have hrefused (_ : Option JsString) (_ : JsString) (r : SendResult) (hr : r.ok = false) :
      (answerOf (.error r)).ok = false := hr
  refine sendsParts_inTurn hsend hrefused fun ids _ => ⟨rfl, ?_⟩
  rw [answerOf, foldl_last, Option.or_none]

/-- A loop that answers with the first refusal, or under the id of the last part. -/
theorem sendsParts_last {takes : Event Call Answer ε ω → Option (JsString × JsString)}
    {send : Option JsString → JsString → Prog Call Answer ε ω (Except SendResult (Option JsString))}
    (hsend : ∀ a part, Takes takes (fun _ id => some id) a part (·.ok = false) (send a part))
    (parts : List JsString) : SendsParts takes List.getLast? parts
      (inTurn send none parts >>= fun r => .ret (answerOf r)) := by
  have h := sendsParts_lastText id hsend parts
  simp only [Option.map_id_fun, id_eq] at h
  exact h

/-- A program that asks for nothing but what it reads, and refuses. -/
def OnlyRefuses (reads : Call → Prop) (p : Prog Call Answer ε ω SendResult) : Prop :=
  p.CallsIn reads ∧ p.Returns (·.ok = false)

/-- An edit goes by the bodies of a text: it puts the only one in the place of the message, or
refuses when there are several, having made no request. -/
def EditsAs (granted : ∀ c, Except ε (Answer c) → Prop)
    (takes : Event Call Answer ε ω → Option (JsString × I)) (messageId : JsString)
    (bodies : List JsString) (reads : Call → Prop) (p : Prog Call Answer ε ω SendResult) : Prop :=
  (∃ body, bodies = [body] ∧ Delivers granted takes (fun _ => some messageId) [body] p) ∨
    1 < bodies.length ∧ OnlyRefuses reads p

section
variable {granted : ∀ c, Except ε (Answer c) → Prop}
  {takes : Event Call Answer ε ω → Option (JsString × I)} {messageId : JsString}
  {bodies : List JsString} {reads : Call → Prop}

/-- An edit that matches on the bodies. -/
theorem editsAs_of_bodies (edit : List JsString → Prog Call Answer ε ω SendResult)
    (hne : bodies ≠ [])
    (hone : ∀ body, Delivers granted takes (fun _ => some messageId) [body] (edit [body]))
    (hmany : ∀ first second rest, OnlyRefuses reads (edit (first :: second :: rest))) :
    EditsAs granted takes messageId bodies reads (edit bodies) := by
  match bodies with
  | [] => exact (hne rfl).elim
  | [body] => exact .inl ⟨body, rfl, hone body⟩
  | first :: second :: rest => exact .inr ⟨by simp, hmany first second rest⟩

theorem EditsAs.refuses {p : Prog Call Answer ε ω SendResult}
    (h : EditsAs granted takes messageId bodies reads p) (hmany : 1 < bodies.length) :
    OnlyRefuses reads p := by
  obtain ⟨body, rfl, _⟩ | ⟨_, hrefuses⟩ := h
  · simp at hmany
  · exact hrefuses

/-- Something is read first, and the edit goes on if that is granted. -/
theorem editsAs_call (hne : bodies ≠ []) {c : Call} (hread : reads c)
    {k : Except ε (Answer c) → Prog Call Answer ε ω SendResult}
    (hk : ∀ r, takes (.answered c r) = none ∧
      (EditsAs granted takes messageId bodies reads (k r) ∨
        ¬granted c r ∧ ∃ r', k r = .ret r' ∧ r'.ok = false)) :
    EditsAs granted takes messageId bodies reads (.call c k) := by
  by_cases hone : ∃ body, bodies = [body]
  · obtain ⟨body, rfl⟩ := hone
    have hbody (r : Except ε (Answer c)) :
        SendsParts takes (fun _ => some messageId) [body] (k r) ∧
          (granted c r → (k r).ReturnsUnder granted (·.ok = true)) := by
      obtain (⟨body', hbody, hdelivers⟩ | ⟨hmany, _⟩) | ⟨hrefused, r', hr', hno⟩ := (hk r).2
      · cases hbody
        exact ⟨hdelivers.sends, fun _ => hdelivers.answers⟩
      · exact absurd hmany (by simp)
      · rw [hr']
        exact ⟨sendsParts_refusal hne hno, fun hgranted => (hrefused hgranted).elim⟩
    exact .inl ⟨body, rfl, sendsParts_call hne fun r => ⟨(hk r).1, (hbody r).1⟩,
      fun r => (hbody r).2⟩
  · have hrefuses (r : Except ε (Answer c)) : OnlyRefuses reads (k r) := by
      obtain (⟨body, hbody, _⟩ | ⟨_, hmany⟩) | ⟨_, r', hr', hno⟩ := (hk r).2
      · exact (hone ⟨body, hbody⟩).elim
      · exact hmany
      · rw [hr']
        exact ⟨trivial, hno⟩
    refine .inr ⟨?_, ⟨hread, fun r => (hrefuses r).1⟩, fun r => (hrefuses r).2⟩
    have hpos := List.length_pos_iff.2 hne
    have hlength : bodies.length ≠ 1 := fun hlen => hone (List.length_eq_one_iff.1 hlen)
    omega

end

/-- A text of so many letters and no white space. -/
@[irreducible] def letters (n : Nat) : JsString := List.replicate n (unit 'a')

theorem length_letters (n : Nat) : (letters n).length = n := by
  rw [letters, List.length_replicate]

theorem letters_ne_nil {n : Nat} (hn : 0 < n) : letters n ≠ [] := by
  rw [← List.length_pos_iff, length_letters]
  exact hn

theorem countP_letters (n : Nat) : (letters n).countP (!isSpace ·) = n := by
  have hletter : isSpace (unit 'a') = false := by decide
  rw [letters, List.countP_replicate, hletter]
  rfl

theorem not_ok_partsRefusal (unitName : JsString) (partCount : Nat) :
    (partsRefusal unitName partCount).ok = false := by
  unfold partsRefusal
  split <;> rfl

end TheokitGateways.Gateway
