namespace Playback.Word

def bound : Nat := 18446744073709551616

def half : Nat := 9223372036854775808

end Playback.Word
