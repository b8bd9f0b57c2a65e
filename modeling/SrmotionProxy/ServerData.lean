/-
# The reply to `server_data.php`

The template goes through two formatters: `format`, whose buffer has 1024 bytes, and
`sb_writef`, which takes the text it is given for a format string. This module says for
which fields the reply is the template with the fields filled in.
-/

import SrmotionProxy.Http
import Mathlib.Tactic.Tauto

namespace SrmotionProxy.Http

open SrmotionProxy.Lib SrmotionProxy.Events

/-! ## Writing a text as its own format -/

/-- Without a percent sign the text is copied. -/
theorem sbWritef_of_free {fmt : Bytes} (hfree : percent ∉ fmt) : sbWritef fmt = .ok fmt := by
  unfold sbWritef
  induction fmt with
  | nil => rfl
  | cons byte fmt ih =>
      rw [List.mem_cons, not_or] at hfree
      rw [sbBufferVwritef, if_neg (Ne.symm hfree.1), ih hfree.2]
      rfl

/-- What is written is not longer than the format. -/
theorem length_sbBufferVwritef_le {directive : Option Nat} {fmt out : Bytes}
    (hwrite : sbBufferVwritef directive fmt = .ok out) : out.length ≤ fmt.length := by
  induction fmt generalizing directive out with
  | nil =>
      cases directive with
      | none =>
          cases hwrite
          exact Nat.le_refl _
      | some flags => cases hwrite
  | cons byte fmt ih =>
      have hpush {out : Bytes} (hrest : (do return byte :: (← sbBufferVwritef none fmt)) =
          (.ok out : Except Abort Bytes)) : out.length ≤ (byte :: fmt).length := by
        obtain ⟨rest, hlater, hout⟩ := except_bind_eq_ok hrest
        cases hout
        exact Nat.succ_le_succ (ih hlater)
      rw [List.length_cons]
      cases directive with
      | none =>
          rw [sbBufferVwritef] at hwrite
          split at hwrite
          · exact (ih hwrite).trans (Nat.le_succ _)
          · exact hpush hwrite
      | some flags =>
          rw [sbBufferVwritef] at hwrite
          split at hwrite
          · cases hwrite
          split at hwrite
          · split at hwrite
            · exact (ih hwrite).trans (Nat.le_succ _)
            · cases hwrite
          split at hwrite
          · cases hwrite
          · exact hpush hwrite

/-- A percent sign is never written out together with what follows it. -/
theorem length_sbWritef_lt {fmt out : Bytes} (hmem : percent ∈ fmt)
    (hwrite : sbWritef fmt = .ok out) : out.length < fmt.length := by
  unfold sbWritef at hwrite
  induction fmt generalizing out with
  | nil => cases hmem
  | cons byte fmt ih =>
      rw [sbBufferVwritef] at hwrite
      rw [List.length_cons]
      split at hwrite
      case isTrue hpercent => exact Nat.lt_succ_of_le (length_sbBufferVwritef_le hwrite)
      case isFalse hother =>
          obtain ⟨rest, hrest, hout⟩ := except_bind_eq_ok hwrite
          cases hout
          have hlater := (List.mem_cons.mp hmem).resolve_left (Ne.symm hother)
          exact Nat.succ_lt_succ (ih hlater hrest)

/-! ## C strings -/

theorem cStr_of_free {text : Bytes} (hfree : 0 ∉ text) : cStr text = text := by
  apply List.takeWhile_eq_self_iff.mpr
  intro byte hbyte
  apply decide_eq_true
  rintro rfl
  exact hfree hbyte

theorem length_cStr_le (text : Bytes) : (cStr text).length ≤ text.length :=
  (List.takeWhile_sublist _).length_le

theorem free_of_length_cStr {text : Bytes} (hlength : text.length ≤ (cStr text).length) :
    0 ∉ text := by
  have hsame : cStr text = text :=
    (List.takeWhile_prefix _).eq_of_length ((length_cStr_le text).antisymm hlength)
  intro hzero
  rw [← hsame] at hzero
  have hnot := List.mem_takeWhile_imp hzero
  exact absurd hnot (by decide)

/-! ## The template -/

/-- A field that both formatters copy. -/
def Literal (text : Bytes) : Prop := percent ∉ text ∧ 0 ∉ text

instance (text : Bytes) : Decidable (Literal text) := inferInstanceAs (Decidable (_ ∧ _))

/-- The text in front of a field is copied. -/
theorem fill_append {front : Bytes} (hfree : percent ∉ front) (field : Bytes → Bytes)
    (msg arg : Bytes) (args : List Bytes) :
    fill field (front ++ percent :: letterS :: msg) (arg :: args) =
      front ++ (field arg ++ fill field msg args) := by
  induction front with
  | nil => exact if_pos ⟨rfl, rfl⟩
  | cons byte front ih =>
      rw [List.mem_cons, not_or] at hfree
      have hother (next : UInt8) : ¬ (byte = percent ∧ next = letterS) :=
        fun hboth => hfree.1 hboth.1.symm
      cases front with
      | nil => exact (if_neg (hother _)).trans (congrArg _ (ih hfree.2))
      | cons next front => exact (if_neg (hother _)).trans (congrArg _ (ih hfree.2))

theorem fill_nil (field : Bytes → Bytes) (msg : Bytes) : fill field msg [] = msg := by
  induction msg with
  | nil => rfl
  | cons byte msg ih =>
      cases msg with
      | nil => rfl
      | cons next msg => exact congrArg _ ih

theorem fill_serverData (field : Bytes → Bytes) (ip port beta metaText : Bytes) :
    fill field serverData [ip, port, beta, metaText] = ascii "server|" ++ (field ip ++
      (ascii "\nport|" ++ (field port ++
        (ascii "\ntype|1\n#maint|Under mainteance.\nbeta_server|" ++ (field beta ++
          (ascii "\nbeta_port|1945\nbeta_type|1\nmeta|" ++ (field metaText ++
            ascii "\nRTENDMARKERBS1001\n"))))))) := by
  have hsplit : serverData = ascii "server|" ++ percent :: letterS ::
      (ascii "\nport|" ++ percent :: letterS ::
        (ascii "\ntype|1\n#maint|Under mainteance.\nbeta_server|" ++ percent :: letterS ::
          (ascii "\nbeta_port|1945\nbeta_type|1\nmeta|" ++ percent :: letterS ::
            ascii "\nRTENDMARKERBS1001\n"))) := by decide
  rw [hsplit, fill_append (by decide), fill_append (by decide), fill_append (by decide),
    fill_append (by decide), fill_nil]

theorem length_fill_serverData (field : Bytes → Bytes) (ip port beta metaText : Bytes) :
    (fill field serverData [ip, port, beta, metaText]).length =
      (field ip).length + (field port).length + (field beta).length + (field metaText).length +
        110 := by
  have hlengths : (ascii "server|").length + (ascii "\nport|").length +
      (ascii "\ntype|1\n#maint|Under mainteance.\nbeta_server|").length +
      (ascii "\nbeta_port|1945\nbeta_type|1\nmeta|").length +
      (ascii "\nRTENDMARKERBS1001\n").length = 110 := by decide
  rw [fill_serverData]
  simp only [List.length_append]
  omega

/-- Neither a percent sign nor a NUL stands between the fields. -/
theorem mem_fill_serverData_iff {byte : UInt8} (hbyte : byte = percent ∨ byte = 0)
    (field : Bytes → Bytes) (ip port beta metaText : Bytes) :
    byte ∈ fill field serverData [ip, port, beta, metaText] ↔
      byte ∈ field ip ∨ byte ∈ field port ∨ byte ∈ field beta ∨ byte ∈ field metaText := by
  have hbetween : byte ∉ ascii "server|" ∧ byte ∉ ascii "\nport|" ∧
      byte ∉ ascii "\ntype|1\n#maint|Under mainteance.\nbeta_server|" ∧
      byte ∉ ascii "\nbeta_port|1945\nbeta_type|1\nmeta|" ∧
      byte ∉ ascii "\nRTENDMARKERBS1001\n" := by
    rcases hbyte with rfl | rfl <;> decide
  rw [fill_serverData]
  simp only [List.mem_append, hbetween, false_or, or_false]

/-! ## The reply -/

/-- The template with its fields taken literally. -/
def literally (env : Env) : Bytes := fill id serverData [env.ip, env.port, env.ip, env.getMeta]

/-- The fields that fit into the buffer of `format` and that both formatters copy. -/
def Printable (env : Env) : Prop :=
  Literal env.ip ∧ Literal env.port ∧ Literal env.getMeta ∧
    2 * env.ip.length + env.port.length + env.getMeta.length ≤ 913

instance (env : Env) : Decidable (Printable env) := inferInstanceAs (Decidable (_ ∧ _))

theorem length_literally (env : Env) : (literally env).length =
    2 * env.ip.length + env.port.length + env.getMeta.length + 110 := by
  rw [literally, length_fill_serverData]
  simp only [id]
  omega

theorem mem_literally_iff {byte : UInt8} (hbyte : byte = percent ∨ byte = 0) (env : Env) :
    byte ∈ literally env ↔ byte ∈ env.ip ∨ byte ∈ env.port ∨ byte ∈ env.getMeta := by
  rw [literally, mem_fill_serverData_iff hbyte]
  simp only [id]
  tauto

/-- The first formatter gives the template filled in exactly for fields without a NUL that
fit into its buffer. -/
theorem format_eq_literally_iff (env : Env) :
    format serverData [env.ip, env.port, env.ip, env.getMeta] = literally env ↔
      (0 ∉ env.ip ∧ 0 ∉ env.port ∧ 0 ∉ env.getMeta) ∧
        2 * env.ip.length + env.port.length + env.getMeta.length ≤ 913 := by
  have hlength := length_literally env
  have hzero := mem_literally_iff (.inr rfl) env
  constructor
  · intro hformat
    have hwhole : (literally env).length ≤ 1023 ∧
        (literally env).length ≤ (fill cStr serverData
          [env.ip, env.port, env.ip, env.getMeta]).length := by
      have hcut := length_cStr_le ((fill cStr serverData
        [env.ip, env.port, env.ip, env.getMeta]).take 1023)
      rw [← format, hformat, List.length_take] at hcut
      omega
    rw [length_fill_serverData] at hwhole
    have hip := length_cStr_le env.ip
    have hport := length_cStr_le env.port
    have hmeta := length_cStr_le env.getMeta
    refine ⟨⟨free_of_length_cStr ?_, free_of_length_cStr ?_, free_of_length_cStr ?_⟩, ?_⟩ <;>
      omega
  · rintro ⟨⟨hip, hport, hmeta⟩, hfits⟩
    have hfill : fill cStr serverData [env.ip, env.port, env.ip, env.getMeta] = literally env := by
      rw [literally, fill_serverData, fill_serverData, cStr_of_free hip, cStr_of_free hport,
        cStr_of_free hmeta]
      rfl
    rw [format, hfill, List.take_of_length_le (by omega)]
    apply cStr_of_free
    rw [hzero]
    tauto

/-- The second gives what the first would, exactly if there is no percent sign. -/
theorem sbWritef_format_iff (env : Env) :
    sbWritef (format serverData [env.ip, env.port, env.ip, env.getMeta]) = .ok (literally env) ↔
      Printable env := by
  have hpercent := mem_literally_iff (.inl rfl) env
  have hprintable : Printable env ↔ percent ∉ literally env ∧
      format serverData [env.ip, env.port, env.ip, env.getMeta] = literally env := by
    rw [hpercent, format_eq_literally_iff, Printable, Literal, Literal, Literal]
    tauto
  rw [hprintable]
  constructor
  · intro hwrite
    have hshort : (format serverData [env.ip, env.port, env.ip, env.getMeta]).length ≤
        (literally env).length := by
      have hcut := length_cStr_le ((fill cStr serverData
        [env.ip, env.port, env.ip, env.getMeta]).take 1023)
      rw [← format, List.length_take, length_fill_serverData] at hcut
      have hip := length_cStr_le env.ip
      have hport := length_cStr_le env.port
      have hmeta := length_cStr_le env.getMeta
      have hlength := length_literally env
      omega
    have hfree : percent ∉ format serverData [env.ip, env.port, env.ip, env.getMeta] := by
      intro hmem
      have hless := length_sbWritef_lt hmem hwrite
      omega
    rw [sbWritef_of_free hfree] at hwrite
    have hformat := Except.ok.inj hwrite
    rw [hformat] at hfree
    exact ⟨hfree, hformat⟩
  · rintro ⟨hfree, hformat⟩
    rw [hformat]
    exact sbWritef_of_free hfree

/-- The body for a path with `server_data.php` is the template with its fields filled in
exactly if the fields are free of percent signs and NULs and fit into the buffer. -/
theorem serverData_literal_iff (env : Env) (method path : Bytes)
    (hpath : contains path (ascii "/growtopia/server_data.php") = true) :
    (∃ reply, handler env method path = .ok reply ∧ reply.body = literally env) ↔
      Printable env := by
  rw [handler, if_pos hpath, serverDataReply, ← sbWritef_format_iff]
  constructor
  · rintro ⟨reply, hreply, hbody⟩
    obtain ⟨body, hwrite, hend⟩ := except_bind_eq_ok hreply
    cases hend
    rw [hwrite]
    exact congrArg Except.ok hbody
  · intro hwrite
    rw [hwrite]
    exact ⟨_, rfl, rfl⟩

/-- A server with a short meta text is announced as it is. -/
theorem serverData_literal_sample :
    let env : Env := { ip := ascii "127.0.0.1", port := ascii "17091", getMeta := ascii "ni.com",
                       readFile := fun _ => none }
    ∃ reply, handler env (ascii "POST") (ascii "/growtopia/server_data.php") = .ok reply ∧
      reply.body = literally env :=
  (serverData_literal_iff _ _ _ (by decide)).mpr (by decide)

/-- A percent sign in the meta text is lost. -/
theorem serverData_loses_percent :
    let env : Env := { ip := ascii "127.0.0.1", port := ascii "17091", getMeta := ascii "1%b",
                       readFile := fun _ => none }
    ¬ ∃ reply, handler env (ascii "POST") (ascii "/growtopia/server_data.php") = .ok reply ∧
      reply.body = literally env := by
  rintro env ⟨reply, hreply, hbody⟩
  have hwrite : sbWritef (format serverData [env.ip, env.port, env.ip, env.getMeta]) =
      .ok reply.body := by
    obtain ⟨body, hwrite, hend⟩ := except_bind_eq_ok hreply
    cases hend
    exact hwrite
  rw [hbody] at hwrite
  exact absurd ((sbWritef_format_iff env).mp hwrite) (by decide)

end SrmotionProxy.Http
