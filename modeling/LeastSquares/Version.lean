namespace LeastSquares

def version : String := "0.1.0"

end LeastSquares
