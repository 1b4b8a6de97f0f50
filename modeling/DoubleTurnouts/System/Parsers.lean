/-
  DoubleTurnouts.System.Parsers

  The manager reads a request with a JSON parser, the node reads the same
  text by searching for the quoted key.  The search stops at the first
  literal that is the key or ends in an escaped quote and the key, at any
  depth and also where it is a value, and what follows is copied as it
  stands.  The parser takes the first member with the key behind the one it
  returned last.  The two agree on a member that the search finds first
  exactly if nothing but spaces stands before its value and the value has no
  escape, and on another one only if the text found instead spells the same
  string.
-/
import Mathlib.Tactic
import DoubleTurnouts.Lib.JsonText
import DoubleTurnouts.InfraController.Channel
import DoubleTurnouts.InfraController.SizedReader
import DoubleTurnouts.Sample.Dumps
import DoubleTurnouts.UnitManager.Dispatch

namespace DoubleTurnouts

open Text Decimal JsonText

/-! ## Searching a document -/

/-- Bodies, one escape or one other byte at a time. -/
theorem isBody_cases {c : UInt8} {b : Bytes} (h : isBody (c :: b) = true) :
    (c ≠ quote ∧ c ≠ backslash ∧ isBody b = true) ∨
      ∃ d b', c = backslash ∧ b = d :: b' ∧ isBody b' = true := by
  cases b with
  | nil =>
      simp only [isBody, Bool.and_eq_true, decide_eq_true_eq] at h
      exact .inl ⟨h.1, h.2, rfl⟩
  | cons d b =>
      by_cases hc : c = backslash
      · simp only [isBody, hc, if_true] at h
        exact .inr ⟨d, b, hc, rfl, h⟩
      · simp only [isBody, if_neg hc, Bool.and_eq_true, decide_eq_true_eq] at h
        exact .inl ⟨h.1, hc, h.2⟩

/-- A text without quotes and backslashes is its own literal. -/
theorem isBody_of_not_mem {b : Bytes} (hquote : quote ∉ b) (hback : backslash ∉ b) :
    isBody b = true := by
  induction b with
  | nil => rfl
  | cons c b ih =>
      simp only [List.mem_cons, not_or] at hquote hback
      have hb := ih hquote.2 hback.2
      cases b with
      | nil => simp [isBody, Ne.symm hquote.1, Ne.symm hback.1]
      | cons d b => simp [isBody, Ne.symm hquote.1, Ne.symm hback.1, hb]

/-- In a body every quote stands behind a backslash. -/
theorem noClose_of_isBody {b : Bytes} (h : isBody b = true) (prev : UInt8) :
    Scan.noClose prev b = true := by
  induction hn : b.length using Nat.strong_induction_on generalizing b prev with
  | _ n ih =>
      cases b with
      | nil => rfl
      | cons c b =>
          rcases isBody_cases h with ⟨hquote, -, htail⟩ | ⟨d, b', rfl, rfl, htail⟩
          · have htail' := ih b.length (by simp [← hn]) htail c rfl
            simp [Scan.noClose, hquote, htail']
          · have htail' := ih b'.length (by simp [← hn]) htail d rfl
            simp [Scan.noClose, htail', show backslash ≠ quote by decide]

section Search

variable {k : Bytes} (hk : ∀ c ∈ k, Plain c)

include hk

/-- Right behind a quote: the key and a quote follow exactly if the body is the key. -/
theorem key_starts_body {b rest : Bytes} (hb : isBody b = true) :
    k ++ [quote] <+: b ++ quote :: rest ↔ b = k := by
  induction k generalizing b with
  | nil =>
      cases b with
      | nil => simp
      | cons c b =>
          have hne : quote ≠ c := by
            rcases isBody_cases hb with ⟨hquote, -, -⟩ | ⟨d, b', rfl, -, -⟩
            · exact hquote.symm
            · decide
          simp [List.cons_prefix_cons, hne]
  | cons a k ih =>
      obtain ⟨ha, hk'⟩ := List.forall_mem_cons.mp hk
      cases b with
      | nil => simp [List.cons_prefix_cons, ha.1]
      | cons c b =>
          rcases isBody_cases hb with ⟨-, -, htail⟩ | ⟨d, b', rfl, -, -⟩
          · simp only [List.cons_append, List.cons_prefix_cons, ih hk' htail, List.cons.injEq]
            exact and_congr_left fun _ => eq_comm
          · simp [List.cons_prefix_cons, ha.2.1, ha.2.1.symm]

theorem find_key_starts_literal {b rest : Bytes} (hb : isBody b = true) :
    find_key k <+: quote :: (b ++ quote :: rest) ↔ b = k := by
  rw [find_key, List.cons_prefix_cons, key_starts_body hk hb]
  simp

omit hk in
theorem after_own_literal (rest : Bytes) :
    after (find_key k) (quote :: (k ++ quote :: rest)) = some rest := by
  have hmatch : quote :: (k ++ quote :: rest) = find_key k ++ rest := by simp [find_key]
  rw [hmatch, after_self_append]

/-- From inside a literal the search stops at its end or goes on from there. -/
theorem after_body {b : Bytes} (hb : isBody b = true) (rest : Bytes) :
    after (find_key k) (b ++ quote :: rest) =
      if quote :: k <:+ b then some rest else after (find_key k) (quote :: rest) := by
  induction hn : b.length using Nat.strong_induction_on generalizing b with
  | _ n ih =>
      cases b with
      | nil => simp
      | cons c b =>
          rcases isBody_cases hb with ⟨hquote, -, htail⟩ | ⟨d, b', rfl, rfl, htail⟩
          · have hsuffix : quote :: k <:+ c :: b ↔ quote :: k <:+ b := by
              rw [List.suffix_cons_iff]
              simp [Ne.symm hquote]
            have hskip : quote ∉ [c] := by simpa using Ne.symm hquote
            rw [show c :: b ++ quote :: rest = [c] ++ (b ++ quote :: rest) from rfl, find_key,
              after_skip _ _ hskip, ← find_key, ih b.length (by simp [← hn]) htail rfl]
            simp only [hsuffix]
          · have hback : quote ∉ [backslash] := by decide
            have hrest := ih b'.length (by simp [← hn]) htail rfl
            rw [show backslash :: d :: b' ++ quote :: rest =
              [backslash] ++ d :: (b' ++ quote :: rest) from rfl, find_key, after_skip _ _ hback,
              ← find_key]
            have hhead : quote :: k <:+ backslash :: d :: b' ↔ quote :: k <:+ d :: b' := by
              rw [List.suffix_cons_iff]
              simp [show quote ≠ backslash by decide]
            simp only [hhead]
            rcases eq_or_ne d quote with rfl | hd
            · by_cases hown : b' = k
              · -- this quote, the key and the closing quote
                rw [hown, after_own_literal, if_pos (List.suffix_refl _)]
              · have hsuffix : quote :: k <:+ quote :: b' ↔ quote :: k <:+ b' := by
                  rw [List.suffix_cons_iff]
                  simp [Ne.symm hown]
                rw [after_cons_of_not_starts (mt (find_key_starts_literal hk htail).mp hown),
                  hrest]
                simp only [hsuffix]
            · have hsuffix : quote :: k <:+ d :: b' ↔ quote :: k <:+ b' := by
                rw [List.suffix_cons_iff]
                simp [Ne.symm hd]
              have hskip : quote ∉ [d] := by simpa using Ne.symm hd
              rw [show d :: (b' ++ quote :: rest) = [d] ++ (b' ++ quote :: rest) from rfl, find_key,
                after_skip _ _ hskip, ← find_key, hrest]
              simp only [hsuffix]

/-- A whole literal with the gap behind it. -/
theorem after_part (hne : k ≠ []) (hword : ∀ c ∈ k, isWs c = false ∧ isStop c = false)
    {b gap : Bytes} (hb : isBody b = true) (hgap : isGap gap = true) (rest : Bytes) :
    after (find_key k) (quote :: (b ++ quote :: (gap ++ rest))) =
      if EndsIn k b then some (gap ++ rest) else after (find_key k) rest := by
  obtain ⟨hquote, c, gap', rfl, hc⟩ := exists_of_isGap hgap
  -- no key starts at the closing quote
  have hclosing : after (find_key k) (quote :: (c :: gap' ++ rest)) = after (find_key k) rest := by
    have hnot : ¬ find_key k <+: quote :: (c :: gap' ++ rest) := by
      cases k with
      | nil => exact absurd rfl hne
      | cons a k =>
          obtain ⟨hws, hstop⟩ := hword a (by simp)
          intro hp
          have ha : a = c := by
            simpa [find_key, List.cons_prefix_cons] using
              (List.cons_prefix_cons.mp (List.cons_prefix_cons.mp hp).2).1
          subst ha
          rcases hc with hc | hc
          · rw [hws] at hc
            cases hc
          · rw [hstop] at hc
            cases hc
    rw [after_cons_of_not_starts hnot, find_key, after_skip _ _ hquote]
  by_cases hown : b = k
  · rw [hown, after_own_literal, if_pos (.inl rfl)]
  · rw [after_cons_of_not_starts (mt (find_key_starts_literal hk hb).mp hown),
      after_body hk hb, hclosing]
    simp [EndsIn, hown]

/-- Literals that do not look like the key are passed over. -/
theorem after_render (hne : k ≠ []) (hword : ∀ c ∈ k, isWs c = false ∧ isStop c = false)
    {parts : List (Bytes × Bytes)} (hb : ∀ p ∈ parts, isBody p.1 = true)
    (hgap : ∀ p ∈ parts, isGap p.2 = true) (hnot : ∀ p ∈ parts, ¬ EndsIn k p.1) (rest : Bytes) :
    after (find_key k) (render parts ++ rest) = after (find_key k) rest := by
  induction parts with
  | nil => rfl
  | cons p parts ih =>
      have htext : render (p :: parts) ++ rest =
          quote :: (p.1 ++ quote :: (p.2 ++ (render parts ++ rest))) := by
        simp [render]
      rw [htext, after_part hk hne hword (hb p (by simp)) (hgap p (by simp)),
        if_neg (hnot p (by simp))]
      exact ih (fun q hq => hb q (by simp [hq])) (fun q hq => hgap q (by simp [hq]))
        fun q hq => hnot q (by simp [hq])

end Search

/-! ## Reading one member -/

/-- A key of the protocol: letters and underscores. -/
structure IsKey (k : Bytes) : Prop where
  ne_nil : k ≠ []
  plain : ∀ c ∈ k, Plain c
  word : ∀ c ∈ k, isWs c = false ∧ isStop c = false

theorem isKey_request_id : IsKey (str "request_id") := ⟨by decide, by decide, by decide⟩

theorem isKey_work_id : IsKey (str "work_id") := ⟨by decide, by decide, by decide⟩

/-- A key of letters, digits and underscores. -/
def IsWordKey (k : Bytes) : Prop := k ≠ [] ∧ k.all Channel.isWord = true

instance (k : Bytes) : Decidable (IsWordKey k) := inferInstanceAs (Decidable (_ ∧ _))

theorem isWord_spec : ∀ c : UInt8, Channel.isWord c = true →
    Plain c ∧ JsonText.isWs c = false ∧ isStop c = false := by
  have hall : ∀ n < 256, Channel.isWord (UInt8.ofNat n) = true →
      Plain (UInt8.ofNat n) ∧ JsonText.isWs (UInt8.ofNat n) = false ∧
        isStop (UInt8.ofNat n) = false := by
    decide +kernel
  intro c
  simpa using hall c.toNat c.toNat_lt

theorem IsWordKey.isKey {k : Bytes} (h : IsWordKey k) : IsKey k where
  ne_nil := h.1
  plain c hc := (isWord_spec c (List.all_eq_true.mp h.2 c hc)).1
  word c hc := (isWord_spec c (List.all_eq_true.mp h.2 c hc)).2

theorem endsIn_iff {k b : Bytes} (hquote : quote ∉ b) : EndsIn k b ↔ b = k := by
  constructor
  · rintro (h | h)
    · exact h
    · exact absurd (h.subset (by simp)) hquote
  · exact .inl

namespace JsonText

/-- The first literal that looks like the key, and the text behind it. -/
def Document.Look (d : Document) (k t : Bytes) : Prop :=
  ∃ before b gap rest, d.parts = before ++ (b, gap) :: rest ∧ (∀ p ∈ before, ¬ EndsIn k p.1) ∧
    EndsIn k b ∧ t = gap ++ render rest

variable {d : Document} {k : Bytes}

/-- The search ends at that literal. -/
theorem Document.Look.after_text (hk : IsKey k) {t : Bytes} (h : d.Look k t) :
    after (find_key k) d.text = some t := by
  obtain ⟨before, b, gap, rest, hparts, hnot, hends, rfl⟩ := h
  have hb := d.body
  have hgap := d.gap
  rw [hparts] at hb hgap
  have htext : d.text = d.head ++ (render before ++ quote :: (b ++ quote :: (gap ++
      render rest))) := by
    rw [Document.text, hparts]
    simp [render]
  rw [htext, find_key, after_skip _ _ d.head_quote, ← find_key,
    after_render hk.plain hk.ne_nil hk.word (fun p hp => hb p (by simp [hp]))
      (fun p hp => hgap p (by simp [hp])) hnot,
    after_part hk.plain hk.ne_nil hk.word (hb (b, gap) (by simp)) (hgap (b, gap) (by simp)),
    if_pos hends]

namespace Member

/-- No literal before the member looks like its key. -/
def Found (m : Member d k) : Prop := ∀ p ∈ m.before, ¬ EndsIn k p.1

/-- Only spaces stand between the colon and the value, and the value has no escape. -/
def Simple (m : Member d k) : Prop := (∀ c ∈ m.ws2, c = ch ' ') ∧ backslash ∉ m.body

instance (m : Member d k) : Decidable m.Found := inferInstanceAs (Decidable (∀ _ ∈ _, _))

instance (m : Member d k) : Decidable m.Simple := inferInstanceAs (Decidable (_ ∧ _))

/-- The member itself is found and simple, or what is found instead spells its string. -/
def Agrees (m : Member d k) : Prop :=
  (m.Found ∧ m.Simple) ∨
    ¬ m.Found ∧ ∃ t s, d.Look k t ∧ unescape m.body = some s ∧ Yields id t s

theorem Found.look {m : Member d k} (hm : m.Found) :
    d.Look k (m.ws1 ++ ch ':' :: (m.ws2 ++ quote :: (m.body ++
      quote :: (m.gap ++ render m.rest)))) :=
  ⟨m.before, k, m.ws1 ++ ch ':' :: m.ws2, (m.body, m.gap) :: m.rest, m.parts_eq, hm, .inl rfl, by
    simp [render]⟩

/-- Some literal looks like the key: the member's own at the latest. -/
theorem exists_look (m : Member d k) : ∃ t, d.Look k t := by
  have hown : (d.parts.find? fun p => EndsIn k p.1).isSome := by
    rw [List.find?_isSome]
    exact ⟨(k, m.ws1 ++ ch ':' :: m.ws2), by rw [m.parts_eq]; simp, by simp [EndsIn]⟩
  obtain ⟨⟨b, gap⟩, hfind⟩ := Option.isSome_iff_exists.mp hown
  obtain ⟨hends, before, rest, hparts, hnot⟩ := List.find?_eq_some_iff_append.mp hfind
  exact ⟨_, before, b, gap, rest, hparts, by simpa using hnot, by simpa using hends, rfl⟩

/-- What the node reads as a member it finds is the member's string exactly if it is simple. -/
theorem read_iff (hk : IsKey k) (m : Member d k) (hm : m.Found) {s : Bytes}
    (hs : unescape m.body = some s) : sample_json_str_get d.text k = s ↔ m.Simple := by
  have hbody : isBody m.body = true :=
    d.body (m.body, m.gap) (by rw [m.parts_eq]; simp)
  have hws1 : m.ws1.all Scan.isWs = true := m.ws1_ws
  have hws2 : m.ws2.all Scan.isWs = true := m.ws2_ws
  have hclose := noClose_of_isBody hbody quote
  rw [sample_json_str_get_of_after (hm.look.after_text hk)]
  by_cases hback : backslash ∈ m.body
  · -- the literal is copied with its escapes, so what is read is longer
    have hshort := length_unescape_lt hs hback
    have hread := @result_member_string_starts m.ws1 m.ws2 m.body
      (quote :: (m.gap ++ render m.rest)) hws1 hws2 hclose
    refine iff_of_false ?_ fun hsimple => hsimple.2 hback
    intro heq
    rw [heq] at hread
    rcases hread with rfl | hlong
    · rw [eq_nil_of_unescape hs] at hback
      cases hback
    · have hlen := hlong.length_le
      rw [List.length_append] at hlen
      omega
  · have hlast : m.body.getLast? ≠ some backslash :=
      fun h => hback (List.mem_of_getLast? h)
    rw [result_member_string hws1 hws2 hclose hlast, unescape_eq_of_no_escape hs hback]
    have hsimple : m.Simple ↔ ∀ c ∈ m.ws2, c = ch ' ' := and_iff_left hback
    rw [hsimple, List.append_left_eq_self, List.filter_eq_nil_iff]
    simp

/-- Wherever the search ends: the node reads the member's string exactly if the two agree. -/
theorem read_iff_agrees (hk : IsKey k) (m : Member d k) {s : Bytes}
    (hs : unescape m.body = some s) : sample_json_str_get d.text k = s ↔ m.Agrees := by
  by_cases hm : m.Found
  · rw [m.read_iff hk hm hs, Agrees, and_iff_right hm]
    exact ⟨.inl, fun h => h.resolve_right fun h => h.1 hm⟩
  · obtain ⟨t, ht⟩ := m.exists_look
    have hyields : (Scan.init.run t).result = s ↔ Yields id t s := by
      rw [← Scan.runIn_id]
      exact result_runIn_iff stores_id
    rw [sample_json_str_get_of_after (ht.after_text hk), hyields]
    constructor
    · exact fun h => .inr ⟨hm, t, s, ht, hs, h⟩
    · rintro (⟨hfound, -⟩ | ⟨-, t', s', ht', hs', h⟩)
      · exact absurd hfound hm
      · -- there is one first literal, and the body stands for one string
        obtain rfl := Option.some.inj (hs.symm.trans hs')
        obtain rfl := Option.some.inj ((ht.after_text hk).symm.trans (ht'.after_text hk))
        exact h

end Member

end JsonText

/-! ## Manager and node -/

/-- What simdjson promises about a document from which it returns two strings: a lookup takes
    the first member with the key behind the one it returned last, and goes on from the
    beginning when there is none. -/
def Simdjson.Contract (sj : Simdjson) (d : Document) : Prop :=
  ∀ r, sj.request d.text = some r →
    ∃ (mi : Member d (str "request_id")) (mw : Member d (str "work_id")), mi.First ∧ mw.Next mi ∧
      unescape mi.body = some r.request_id ∧ unescape mw.body = some r.work_id

/-- The node reads the manager's two strings from the same text. -/
def ReadSame (json_str : Bytes) (r : Request) : Prop :=
  sample_json_str_get json_str (str "request_id") = r.request_id ∧
    sample_json_str_get json_str (str "work_id") = r.work_id

/-- For every accepted document: manager and node read the same strings exactly if they agree
    on both of the members that the manager takes.  Below 2^31 bytes this is the node's reader
    with its positions in an int. -/
theorem manager_node_read_same_iff (sj : Simdjson) (d : Document) (hsj : sj.Contract d)
    (r : Request) (hr : sj.request d.text = some r) :
    (∃ (mi : Member d (str "request_id")) (mw : Member d (str "work_id")),
        mi.First ∧ mw.Next mi) ∧
      (∀ mi : Member d (str "request_id"), mi.First → ∀ mw : Member d (str "work_id"),
        mw.Next mi → (ReadSame d.text r ↔ mi.Agrees ∧ mw.Agrees)) ∧
      (d.text.length < 2 ^ 31 → ∀ k,
        Sized.sample_json_str_get d.text k = .ok (sample_json_str_get d.text k)) := by
  obtain ⟨mi', mw', hfirst', hnext', hid, hwork⟩ := hsj r hr
  refine ⟨⟨mi', mw', hfirst', hnext'⟩, ?_, fun hlen k => Sized.sample_json_str_get_eq hlen k⟩
  intro mi hfirst mw hnext
  have hplace := hfirst'.length_eq hfirst
  rw [Member.body_eq_of_length hplace] at hid
  rw [Member.body_eq_of_length (Member.Next.length_eq hplace hnext' hnext)] at hwork
  exact and_congr (mi.read_iff_agrees isKey_request_id hid) (mw.read_iff_agrees isKey_work_id hwork)

/-! ## Two requests -/

/-- A setup request with the given literal as its request id. -/
def setupDocument (body : Bytes) (h : isBody body = true) : Document where
  head := str "\x7b"
  parts := [(str "request_id", str ":"), (body, str ","), (str "work_id", str ": "),
    (str "llm", str ","), (str "action", str ":"), (str "setup", str "\x7d")]
  head_quote := by decide
  body := by
    intro p hp
    simp only [List.mem_cons, List.not_mem_nil, or_false] at hp
    rcases hp with rfl | rfl | rfl | rfl | rfl | rfl
    · decide
    · exact h
    · decide
    · decide
    · decide
    · decide
  gap := by
    intro p hp
    simp only [List.mem_cons, List.not_mem_nil, or_false] at hp
    rcases hp with rfl | rfl | rfl | rfl | rfl | rfl
    · decide
    · exact (by decide : isGap (str ",") = true)
    · decide
    · decide
    · decide
    · decide

section SetupDocument

variable (body : Bytes) (h : isBody body = true)

def setupRequestId : Member (setupDocument body h) (str "request_id") where
  before := []
  ws1 := []
  ws2 := []
  body := body
  gap := str ","
  rest := [(str "work_id", str ": "), (str "llm", str ","), (str "action", str ":"),
    (str "setup", str "\x7d")]
  parts_eq := rfl
  ws1_ws := rfl
  ws2_ws := rfl
  top := rfl

def setupWorkId : Member (setupDocument body h) (str "work_id") where
  before := [(str "request_id", str ":"), (body, str ",")]
  ws1 := []
  ws2 := str " "
  body := str "llm"
  gap := str ","
  rest := [(str "action", str ":"), (str "setup", str "\x7d")]
  parts_eq := rfl
  ws1_ws := rfl
  ws2_ws := rfl
  top := rfl

theorem setupRequestId_first : (setupRequestId body h).First := fun _ _ => Nat.zero_le _

theorem setupWorkId_next : (setupWorkId body h).Next (setupRequestId body h) := by
  left
  refine ⟨Nat.two_pos, ?_⟩
  rintro before ⟨-, ws, value, rest, hws, hparts⟩ hpos
  have htwo : (setupWorkId body h).before.length = 2 := rfl
  rw [htwo]
  by_contra hlt
  have hone : before.length = 1 := by
    have hzero : (setupRequestId body h).before.length = 0 := rfl
    omega
  -- the second literal is the request id, which a comma follows
  have hgap := (@List.append_inj _ [(str "request_id", str ":")] _ _ _ hparts (by simp [hone])).2
  simp only [List.cons.injEq, Prod.mk.injEq] at hgap
  cases ws with
  | nil => exact absurd hgap.1.2 (by simp [str, show ch ',' ≠ ch ':' by decide])
  | cons c ws =>
      obtain rfl : ch ',' = c := (List.cons.inj hgap.1.2).1
      rw [List.all_cons, show isWs (ch ',') = false by decide] at hws
      cases hws

/-- simdjson on that document: `s` is what it returns as the request id. -/
def setupSimdjson (s : Bytes) (hs : Utf8.Valid s) : Simdjson :=
  .table (setupDocument body h).text (Request.members ⟨s, str "llm", str "setup"⟩)
    (by simp [setupDocument, Document.text, str])
    (by
      simp only [Request.members, List.mem_cons, List.not_mem_nil, or_false]
      rintro p (rfl | rfl | rfl)
      · exact hs
      · exact (by decide : Utf8.Valid (str "llm"))
      · exact (by decide : Utf8.Valid (str "setup")))

theorem setupSimdjson_contract {s : Bytes} (hs : Utf8.Valid s) (hbody : unescape body = some s) :
    (setupSimdjson body h s hs).request (setupDocument body h).text =
        some ⟨s, str "llm", str "setup"⟩ ∧
      (setupSimdjson body h s hs).Contract (setupDocument body h) := by
  have hread : (setupSimdjson body h s hs).request (setupDocument body h).text =
      some ⟨s, str "llm", str "setup"⟩ := by
    simp only [Simdjson.request, setupSimdjson, Simdjson.table, if_true]
    rfl
  have hwork : unescape (str "llm") = some (str "llm") := by decide
  refine ⟨hread, ?_⟩
  intro r hr
  obtain rfl := Option.some.inj (hread.symm.trans hr)
  exact ⟨setupRequestId body h, setupWorkId body h, setupRequestId_first body h,
    setupWorkId_next body h, hbody, hwork⟩

end SetupDocument

/-- A request id without escapes is read by both. -/
theorem manager_node_read_same_iff_plain :
    ReadSame (setupDocument (str "1") (by decide)).text ⟨str "1", str "llm", str "setup"⟩ := by
  have hcontract := setupSimdjson_contract (str "1") (by decide) (s := str "1") (by decide)
    (by decide)
  have hread := manager_node_read_same_iff _ _ hcontract.2 _ hcontract.1
  exact (hread.2.1 _ (setupRequestId_first _ (by decide)) _ (setupWorkId_next _ (by decide))).mpr
    ⟨.inl ⟨by decide, by decide⟩, .inl ⟨by decide, by decide⟩⟩

/-- A request id with an escaped quote: the manager has `a"b`, the node `a\"b`. -/
theorem escaped_request_id_read_differently :
    (setupSimdjson (str "a\\\"b") (by decide) (str "a\"b") (by decide)).request
        (setupDocument (str "a\\\"b") (by decide)).text =
      some ⟨str "a\"b", str "llm", str "setup"⟩ ∧
    (setupSimdjson (str "a\\\"b") (by decide) (str "a\"b") (by decide)).Contract
      (setupDocument (str "a\\\"b") (by decide)) ∧
    ¬ ReadSame (setupDocument (str "a\\\"b") (by decide)).text
      ⟨str "a\"b", str "llm", str "setup"⟩ := by
  obtain ⟨hread, hcontract⟩ := setupSimdjson_contract (str "a\\\"b") (by decide)
    (s := str "a\"b") (by decide) (by decide)
  refine ⟨hread, hcontract, ?_⟩
  rintro ⟨hid, -⟩
  revert hid
  decide

end DoubleTurnouts
