import BorderProxy.Text.Number

/-! Status codes of responses with their phrases. A code of the registry has one phrase; any other code
keeps the phrase that it came with. -/

namespace BorderProxy

structure Status where
  code : UInt16
  phrase : Text
  deriving DecidableEq, Repr

namespace Status

def registry : List (UInt16 × String) :=
  [(100, "Trying"), (180, "Ringing"), (181, "CallIsBeingForwarded"), (182, "Queued"),
   (183, "SessionProgress"), (199, "EarlyDialogTerminated"), (200, "OK"), (201, "Accepted"),
   (204, "NoNotification"), (300, "MultipleChoices"), (301, "MovedPermanently"),
   (302, "MovedTemporarily"), (305, "UseProxy"), (380, "AlternativeService"),
   (400, "BadRequest"), (401, "Unauthorized"), (402, "PaymentRequired"), (403, "Forbidden"),
   (404, "NotFound"), (405, "MethodNotAllowed"), (406, "NotAcceptable"),
   (407, "ProxyAuthenticationRequired"), (408, "RequestTimeout"), (409, "Conflict"),
   (410, "Gone"), (411, "LengthRequired"), (412, "ConditionalRequestFailed"),
   (413, "RequestEntityTooLarge"), (414, "RequestUriTooLong"), (415, "UnsupportedMediaType"),
   (416, "UnsupportedUriScheme"), (417, "UnknownResourcePriority"), (420, "BadExtension"),
   (421, "ExtensionRequired"), (422, "SessionIntervalTooSmall"), (423, "IntervalTooBrief"),
   (424, "BadLocationInformation"), (428, "UseIdentityHeader"), (429, "ProvideReferrerIdentity"),
   (433, "AnonymityDisallowed"), (436, "BadIdentityInfo"), (437, "UnsupportedCertificate"),
   (438, "InvalidIdentityHeader"), (439, "FirstHopLacksOutboundSupport"),
   (440, "MaxBreadthExceeded"), (469, "BadInfoPackage"), (470, "ConsentNeeded"),
   (480, "TemporarilyUnavailable"), (481, "CallTransactionDoesNotExist"), (482, "LoopDetected"),
   (483, "TooManyHops"), (484, "AddressIncomplete"), (485, "Ambiguous"), (486, "BusyHere"),
   (487, "RequestTerminated"), (488, "NotAcceptableHere"), (489, "BadEvent"),
   (491, "RequestPending"), (493, "Undecipherable"), (494, "SecurityAgreementRequired"),
   (500, "ServerInternalError"), (501, "NotImplemented"), (502, "BadGateway"),
   (503, "ServiceUnavailable"), (504, "ServerTimeOut"), (505, "VersionNotSupported"),
   (513, "MessageTooLarge"), (580, "PreconditionFailure"), (600, "BusyEverywhere"),
   (603, "Decline"), (604, "DoesNotExistAnywhere"), (606, "NotAcceptableGlobal"),
   (607, "Unwanted")]

/-- The status of a code; the phrase counts only for a code outside the registry. -/
def withPhrase (code : UInt16) (phrase : Text) : Status :=
  match registry.find? fun entry => entry.1 == code with
  | some entry => ⟨code, entry.2.toList⟩
  | none => ⟨code, phrase⟩

/-- The status of a code that nothing else is known about. -/
def ofCode (code : UInt16) : Status := withPhrase code "Other".toList

def text (s : Status) : Text := Text.decimal s.code.toNat ++ ' ' :: s.phrase

end Status

end BorderProxy
