/-!
# The languages a locale may name

The catalogue lists the two-letter language codes that calls may ask for. A well-formed tag whose
language is not listed is refused as unsupported.
-/

namespace CallGate.Locale

/-- The languages of the catalogue, in lower case and in alphabetical order. -/
def catalogue : List String :=
  ["af", "am", "ar", "as", "az", "be", "bg", "bn", "bo", "bs", "ca", "cs", "cy", "da", "de",
   "dv", "el", "en", "es", "et", "eu", "fa", "fi", "fo", "fr", "fy", "ga", "gd", "gl", "gu",
   "ha", "he", "hi", "hr", "hu", "hy", "id", "ig", "is", "it", "ja", "ka", "kk", "kl", "km",
   "kn", "ko", "ky", "lb", "lo", "lt", "lv", "mi", "mk", "ml", "mn", "mr", "ms", "mt", "my",
   "nb", "ne", "nl", "nn", "no", "oc", "or", "pa", "pl", "ps", "pt", "rm", "ro", "ru", "rw",
   "sa", "si", "sk", "sl", "sq", "sr", "sv", "sw", "ta", "te", "tg", "th", "tk", "tr", "tt",
   "ug", "uk", "ur", "uz", "vi", "wo", "xh", "yo", "zh", "zu"]

end CallGate.Locale
